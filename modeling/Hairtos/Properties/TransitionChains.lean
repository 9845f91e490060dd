import Hairtos.Properties.RunToCompletion

namespace Hairtos

variable {H σ : Type}

inductive Visit (H σ : Type)
  | invalid
  | rests (world : σ)
  | requests (target : H) (world : σ)

structure Link (H σ : Type) where
  current : H
  target : H
  world : σ

def visitInit (t : Target) (f : Handlers H σ) (h : H) (world : σ) : Visit H σ :=
  let init := f h world (reservedEvent t sigInit)
  match init.target, init.result with
  | some target, _ => .requests target init.world
  | none, .transition => .invalid
  | none, _ => .rests init.world

def visit (t : Target) (f : Handlers H σ) (h : H) (world : σ) : Visit H σ :=
  let entry := f h world (reservedEvent t sigEntry)
  match entry.target, entry.result with
  | some target, _ => .requests target entry.world
  | none, .transition => .invalid
  | none, _ => visitInit t f h entry.world

def Link.follow (t : Target) (f : Handlers H σ) (l : Link H σ) : Visit H σ :=
  visit t f l.target (f l.current l.world (reservedEvent t sigExit)).world

def Link.next (t : Target) (f : Handlers H σ) (l : Link H σ) : Option (Link H σ) :=
  match l.follow t f with
  | .requests target world => some ⟨l.target, target, world⟩
  | _ => none

def chain (t : Target) (f : Handlers H σ) (first : Option (Link H σ)) : Nat → Option (Link H σ)
  | 0 => first
  | n + 1 => (chain t f first n).bind (Link.next t f)

def Stage.request (t : Target) (f : Handlers H σ) (s : Stage H σ) : MachineCall σ → Option (Link H σ)
  | .start =>
    if s.machine.isStarted then none
    else
      s.machine.initial.bind (fun initial =>
        match visit t f initial s.world with
        | .requests target world => some ⟨initial, target, world⟩
        | _ => none)
  | .dispatch poolIsValid event =>
    match event, s.machine.current with
    | some event, some current =>
      if s.machine.isStarted && event.isValid t poolIsValid &&
          decide ((f current s.world event).result = .transition) then
        (f current s.world event).target.map (fun target => ⟨current, target, (f current s.world event).world⟩)
      else none
    | _, _ => none
  | .environment _ => none

def transitionsIn (t : Target) (calls : List (H × HeEvent)) : Nat :=
  calls.tail.countP (fun c => c.2 = reservedEvent t sigExit)

def lastEntered (t : Target) (before : H) (calls : List (H × HeEvent)) : H :=
  ((calls.filter (fun c => c.2 = reservedEvent t sigEntry)).getLast?.map Prod.fst).getD before

def EntryCalls (t : Target) (h : H) (calls : List (H × HeEvent)) : Prop :=
  calls = [(h, reservedEvent t sigEntry)] ∨ calls = [(h, reservedEvent t sigEntry), (h, reservedEvent t sigInit)]

def Entry.visit (e : Entry H σ) : Visit H σ :=
  if e.status = .ok then e.target.elim (.rests e.world) (.requests · e.world) else .invalid

section

variable {t : Target} {f : Handlers H σ}

theorem chain_succ (first : Option (Link H σ)) (n : Nat) :
    chain t f first (n + 1) = chain t f (first.bind (Link.next t f)) n := by
  induction n with
  | zero => rfl
  | succ n ih => rw [chain, ih, chain]

theorem chain_none (n : Nat) : chain t f none n = none := by
  induction n with
  | zero => rfl
  | succ n ih => rw [chain, ih, Option.bind_none]

variable {current last : H} {begun : Nat} {world w' : σ} {calls : List (H × HeEvent)} {status : Status}

theorem visitInit_eq (h : H) (made : List (H × HeEvent)) :
    visitInit t f h world = ((f h world (reservedEvent t sigInit)).entry made).visit := by
  cases htarget : (f h world (reservedEvent t sigInit)).target with
  | some target => simp [visitInit, Answer.entry, Entry.visit, htarget]
  | none =>
    cases hresult : (f h world (reservedEvent t sigInit)).result <;>
      simp [visitInit, Answer.entry, Entry.visit, htarget, hresult]

theorem visit_eq (h : H) (world : σ) : visit t f h world = (entering t f h world).visit := by
  cases htarget : (f h world (reservedEvent t sigEntry)).target with
  | some target => simp [visit, entering, Answer.entry, Entry.visit, htarget]
  | none =>
    cases hresult : (f h world (reservedEvent t sigEntry)).result with
    | transition => simp [visit, entering, Answer.entry, Entry.visit, htarget, hresult]
    | _ => simp [visit, entering, htarget, hresult, ← visitInit_eq]

theorem entering_calls (h : H) (world : σ) : EntryCalls t h (entering t f h world).calls := by
  rw [entering]
  split
  · exact Or.inr rfl
  · exact Or.inl rfl

theorem entering_status (h : H) (world : σ) : (entering t f h world).status ≠ .overflow := by
  rw [entering]
  split
  all_goals
    rw [Answer.entry]
    split_ifs <;> simp

theorem lastEntered_append (before : H) (xs ys : List (H × HeEvent)) :
    lastEntered t before (xs ++ ys) = lastEntered t (lastEntered t before xs) ys := by
  simp only [lastEntered, List.filter_append]
  cases hys : (ys.filter (fun c => decide (c.2 = reservedEvent t sigEntry))).getLast? with
  | none => simp [List.getLast?_append, hys]
  | some c => simp [List.getLast?_append, hys]

theorem reservedEvent_ne {a b : Nat} (h : a ≠ b) : reservedEvent t a ≠ reservedEvent t b := by
  intro heq
  exact h (congrArg HeEvent.signal heq)

theorem EntryCalls.lastEntered {h before : H} {made : List (H × HeEvent)} (hmade : EntryCalls t h made) :
    Hairtos.lastEntered t before made = h := by
  have hinit : reservedEvent t sigInit ≠ reservedEvent t sigEntry := reservedEvent_ne (by decide)
  rcases hmade with rfl | rfl
  · simp [Hairtos.lastEntered]
  · simp [Hairtos.lastEntered, hinit]

theorem EntryCalls.countP {h : H} {made : List (H × HeEvent)} (hmade : EntryCalls t h made) :
    made.countP (fun c => c.2 = reservedEvent t sigExit) = 0 := by
  have hentry : reservedEvent t sigEntry ≠ reservedEvent t sigExit := reservedEvent_ne (by decide)
  have hinit : reservedEvent t sigInit ≠ reservedEvent t sigExit := reservedEvent_ne (by decide)
  rcases hmade with rfl | rfl
  · simp [hentry]
  · simp [hentry, hinit]

structure Chained (t : Target) (f : Handlers H σ) (l : Link H σ) (begun : Nat) (calls : List (H × HeEvent))
    (status : Status) (last : H) : Prop where
  bounded : calls.countP (fun c => c.2 = reservedEvent t sigExit) + begun ≤ maxInitTransitions + 2
  overflow : status = .overflow ↔
    ∃ l', chain t f (some l) (maxInitTransitions + 1 - begun) = some l' ∧ l'.follow t f ≠ .invalid
  settled : status = .ok →
    ∃ n l' w, chain t f (some l) n = some l' ∧ l'.follow t f = .rests w ∧ last = l'.target
  entered : ∀ before, lastEntered t before calls = last

theorem Chained.cons {l l' : Link H σ} {rest : List (H × HeEvent)} (h : Chained t f l' (begun + 1) rest status last)
    (hnext : l.next t f = some l') (hbegun : begun ≤ maxInitTransitions) {made : List (H × HeEvent)}
    (hmade : EntryCalls t l.target made) :
    Chained t f l begun ((l.current, reservedEvent t sigExit) :: (made ++ rest)) status last where
  bounded := by
    have := h.bounded
    simp only [List.countP_cons, List.countP_append, hmade.countP, decide_true, ↓reduceIte]
    omega
  overflow := by
    have hlen : maxInitTransitions + 1 - begun = maxInitTransitions + 1 - (begun + 1) + 1 := by omega
    rw [h.overflow, hlen, chain_succ, Option.bind_some, hnext]
  settled := by
    intro hok
    obtain ⟨n, l'', w, hchain, hfollow, hlast⟩ := h.settled hok
    refine ⟨n + 1, l'', w, ?_, hfollow, hlast⟩
    rw [chain_succ, Option.bind_some, hnext, hchain]
  entered := by
    intro before
    rw [← List.cons_append, lastEntered_append]
    exact h.entered _

theorem Chained.ends {l : Link H σ} (hend : l.next t f = none ∨ maxInitTransitions < begun)
    (hbegun : begun ≤ maxInitTransitions + 1) {made : List (H × HeEvent)} (hmade : EntryCalls t l.target made)
    (hoverflow : status = .overflow ↔ maxInitTransitions < begun ∧ l.follow t f ≠ .invalid)
    (hok : status = .ok → ∃ w, l.follow t f = .rests w) :
    Chained t f l begun ((l.current, reservedEvent t sigExit) :: made) status l.target where
  bounded := by
    simp only [List.countP_cons, hmade.countP, decide_true, ↓reduceIte]
    omega
  overflow := by
    rw [hoverflow]
    by_cases hlast : maxInitTransitions < begun
    · have hlen : maxInitTransitions + 1 - begun = 0 := by omega
      simp [hlast, hlen, chain]
    · have hlen : maxInitTransitions + 1 - begun = maxInitTransitions - begun + 1 := by omega
      rw [hlen, chain_succ, Option.bind_some, hend.resolve_right hlast, chain_none]
      simp [hlast]
  settled := by
    intro hstatus
    obtain ⟨w, hfollow⟩ := hok hstatus
    exact ⟨0, l, w, rfl, hfollow, rfl⟩
  entered := by
    intro before
    rw [show (l.current, reservedEvent t sigExit) :: made = [(l.current, reservedEvent t sigExit)] ++ made from rfl,
      lastEntered_append]
    exact hmade.lastEntered

theorem Chained.of_runs (l : Link H σ) (hbegun : begun ≤ maxInitTransitions + 1) {e : Entry H σ}
    (he : entering t f l.target (f l.current l.world (reservedEvent t sigExit)).world = e)
    (h : (e.sequel l.target begun).Runs t f l.target e.world calls status last w')
    (hnext : begun ≤ maxInitTransitions → ∀ (l' : Link H σ) rest status last w',
      Unfolds t f l'.current (.exit l'.target) (begun + 1) l'.world rest status last w' →
      Chained t f l' (begun + 1) rest status last) :
    Chained t f l begun ((l.current, reservedEvent t sigExit) :: (e.calls ++ calls)) status last := by
  have hfollow : l.follow t f = e.visit := he ▸ visit_eq _ _
  have hmade : EntryCalls t l.target e.calls := he ▸ entering_calls _ _
  have hstatus : e.status ≠ .overflow := he ▸ entering_status _ _
  unfold Entry.sequel Sequel.entered at h
  by_cases hok : e.status = .ok
  · rw [if_pos hok] at h
    by_cases hover : begun > maxInitTransitions
    · rw [if_pos hover] at h
      obtain ⟨rfl, rfl, rfl, -⟩ := h
      rw [List.append_nil]
      refine .ends (Or.inr hover) hbegun hmade ?_ (by simp)
      cases htarget : e.target <;> simp [hover, hfollow, Entry.visit, hok, htarget]
    · rw [if_neg hover] at h
      cases htarget : e.target with
      | none =>
        have hrests : l.follow t f = .rests e.world := by simp [hfollow, Entry.visit, hok, htarget]
        rw [htarget] at h
        obtain ⟨rfl, rfl, rfl, -⟩ := h
        rw [List.append_nil]
        exact .ends (Or.inl (by simp [Link.next, hrests])) hbegun hmade (by simp [hover]) (fun _ => ⟨_, hrests⟩)
      | some target =>
        have hlink : l.next t f = some ⟨l.target, target, e.world⟩ := by
          simp [Link.next, hfollow, Entry.visit, hok, htarget]
        rw [htarget] at h
        exact (hnext (not_lt.mp hover) ⟨l.target, target, e.world⟩ _ _ _ _ h).cons hlink (not_lt.mp hover) hmade
  · rw [if_neg hok] at h
    obtain ⟨rfl, rfl, rfl, -⟩ := h
    have hinvalid : l.follow t f = .invalid := by simp [hfollow, Entry.visit, hok]
    rw [List.append_nil]
    exact .ends (Or.inl (by simp [Link.next, hinvalid])) hbegun hmade (by simp [hinvalid, hstatus]) (by simp [hok])

theorem Unfolds.chained {left : Nat} (l : Link H σ) (hbegun : begun + left = maxInitTransitions + 1)
    (h : Unfolds t f l.current (.exit l.target) begun l.world calls status last w') :
    Chained t f l begun calls status last := by
  induction left generalizing l begun calls status last w' with
  | zero =>
    obtain ⟨rest, rfl, hrest⟩ := (unfolds_exit_iff rfl).mp h
    exact .of_runs l (by omega) rfl hrest (fun hlt => absurd hlt (by omega))
  | succ left ih =>
    obtain ⟨rest, rfl, hrest⟩ := (unfolds_exit_iff rfl).mp h
    exact .of_runs l (by omega) rfl hrest (fun _ l' rest status last w' hunfolds => ih l' (by omega) hunfolds)

structure Chains (t : Target) (f : Handlers H σ) (first : Option (Link H σ)) (calls : List (H × HeEvent))
    (status : Status) (before last : H) : Prop where
  bounded : transitionsIn t calls ≤ maxInitTransitions + 1
  overflow : status = .overflow ↔
    ∃ l, chain t f first maxInitTransitions = some l ∧ l.follow t f ≠ .invalid
  settled : status = .ok → ∀ l, first = some l →
    ∃ n l' w, chain t f (some l) n = some l' ∧ l'.follow t f = .rests w ∧ last = l'.target
  entered : lastEntered t before calls = last

theorem Chains.of_none {before : H} (hcalls : transitionsIn t calls = 0) (hstatus : status ≠ .overflow)
    (hentered : lastEntered t before calls = last) : Chains t f none calls status before last where
  bounded := by omega
  overflow := by simp [hstatus, chain_none]
  settled := by simp
  entered := hentered

theorem Chains.of_chained {before : H} {l : Link H σ} {made rest : List (H × HeEvent)}
    (h : Chained t f l 1 rest status last)
    (hne : made ≠ []) (hmade : transitionsIn t made = 0) : Chains t f (some l) (made ++ rest) status before last where
  bounded := by
    have hbounded := h.bounded
    rw [transitionsIn, List.tail_append_of_ne_nil hne, List.countP_append]
    rw [transitionsIn] at hmade
    omega
  overflow := h.overflow
  settled := by
    rintro hok l' ⟨⟩
    exact h.settled hok
  entered := by
    rw [lastEntered_append]
    exact h.entered _

theorem EntryCalls.transitionsIn {h : H} {made : List (H × HeEvent)} (hmade : EntryCalls t h made) :
    Hairtos.transitionsIn t made = 0 := by
  have hinit : reservedEvent t sigInit ≠ reservedEvent t sigExit := reservedEvent_ne (by decide)
  rcases hmade with rfl | rfl
  · simp [Hairtos.transitionsIn]
  · simp [Hairtos.transitionsIn, hinit]

theorem Unfolds.start_chains {s : Stage H σ} {initial : H} (hat : s.machine.At initial current false) {before : H}
    (h : Unfolds t f initial .entry 0 s.world calls status last w') :
    Chains t f (s.request t f .start) calls status before last := by
  have hstarted : s.machine.isStarted = false := by simp [StateMachine.isStarted, hat.started_eq]
  obtain ⟨rest, rfl, hruns⟩ := unfolds_entry_iff.mp h
  have hmade := entering_calls (t := t) (f := f) initial s.world
  have hstatus := entering_status (t := t) (f := f) initial s.world
  have hvisit := visit_eq (t := t) (f := f) initial s.world
  generalize entering t f initial s.world = e at hruns hmade hstatus hvisit
  have hne : e.calls ≠ [] := by rcases hmade with h | h <;> simp [h]
  unfold Entry.sequel Sequel.entered at hruns
  rw [if_neg (Nat.not_lt_zero _)] at hruns
  by_cases hok : e.status = .ok
  · rw [if_pos hok] at hruns
    cases htarget : e.target with
    | none =>
      rw [htarget] at hruns
      obtain ⟨rfl, rfl, rfl, -⟩ := hruns
      have hnone : s.request t f .start = none := by
        simp [Stage.request, hstarted, hat.initial_eq, hvisit, Entry.visit, hok, htarget]
      rw [hnone, List.append_nil]
      exact .of_none hmade.transitionsIn (by simp) hmade.lastEntered
    | some target =>
      have hsome : s.request t f .start = some ⟨initial, target, e.world⟩ := by
        simp [Stage.request, hstarted, hat.initial_eq, hvisit, Entry.visit, hok, htarget]
      rw [htarget] at hruns
      rw [hsome]
      exact .of_chained (Unfolds.chained ⟨initial, target, e.world⟩ (Nat.add_comm 1 _) hruns) hne
        hmade.transitionsIn
  · rw [if_neg hok] at hruns
    obtain ⟨rfl, rfl, rfl, -⟩ := hruns
    have hnone : s.request t f .start = none := by
      simp [Stage.request, hstarted, hat.initial_eq, hvisit, Entry.visit, hok]
    rw [hnone, List.append_nil]
    exact .of_none hmade.transitionsIn hstatus hmade.lastEntered

theorem Unfolds.dispatch_chains {s : Stage H σ} {initial : H} (hat : s.machine.At initial current true)
    {poolIsValid : Nat → Bool} {event : HeEvent} (hvalid : event.isValid t poolIsValid = true)
    (h : Unfolds t f current (.event event) 0 s.world calls status last w') :
    Chains t f (s.request t f (.dispatch poolIsValid (some event))) calls status current last := by
  have hstarted : s.machine.isStarted = true := by simp [StateMachine.isStarted, hat.started_eq, hat.isValid]
  have hentered : lastEntered t current [(current, event)] = current := by
    by_cases he : event = reservedEvent t sigEntry <;> simp [lastEntered, he]
  have hhalts : ∀ status', Phase.sequel (.event event) current 0 (f current s.world event) = .halt status' →
      status' ≠ .overflow → s.request t f (.dispatch poolIsValid (some event)) = none →
      Chains t f (s.request t f (.dispatch poolIsValid (some event))) calls status current last := by
    intro status' hseq hne hnone
    obtain ⟨rest, rfl, hruns⟩ := unfolds_iff.mp h
    rw [show Phase.sequel _ _ _ (f _ _ (Phase.occasion _ _)) = _ from hseq] at hruns
    obtain ⟨rfl, rfl, rfl, -⟩ := hruns
    rw [hnone]
    exact .of_none rfl hne hentered
  cases hresult : (f current s.world event).result with
  | transition =>
    cases hasked : (f current s.world event).target with
    | none =>
      exact hhalts .invalidState (by simp [Phase.sequel, hresult, hasked]) (by simp)
        (by simp [Stage.request, hat.current_eq, hasked])
    | some target =>
      have hseq : Phase.sequel (.event event) current 0 (f current s.world event) = .call current (.exit target) 1 := by
        simp [Phase.sequel, hresult, hasked]
      obtain ⟨rest, rfl, hrest⟩ := unfolds_iff.mp h
      rw [show Phase.sequel _ _ _ (f _ _ (Phase.occasion _ _)) = _ from hseq] at hrest
      have hsome : s.request t f (.dispatch poolIsValid (some event)) =
          some ⟨current, target, (f current s.world event).world⟩ := by
        simp [Stage.request, hat.current_eq, hstarted, hvalid, hresult, hasked]
      rw [hsome]
      have hchained := Unfolds.chained ⟨current, target, (f current s.world event).world⟩ (Nat.add_comm 1 _) hrest
      exact Chains.of_chained hchained (List.cons_ne_nil (current, event) []) rfl
  | handled =>
    exact hhalts .ok (by simp [Phase.sequel, hresult]) (by simp) (by simp [Stage.request, hat.current_eq, hresult])
  | ignored =>
    exact hhalts .ok (by simp [Phase.sequel, hresult]) (by simp) (by simp [Stage.request, hat.current_eq, hresult])
  | other =>
    exact hhalts .invalidState (by simp [Phase.sequel, hresult]) (by simp)
      (by simp [Stage.request, hat.current_eq, hresult])

theorem Serves.chains {s : Stage H σ} {initial : H} {v v' : MachineView H σ} {c : MachineCall σ}
    (h : Serves t f initial v c status calls v') (hshows : s.Shows initial v) :
    Chains t f (s.request t f c) calls status v.current v'.current := by
  obtain ⟨hat, hworld⟩ := hshows
  cases h with
  | start hunfolds =>
    obtain rfl : s.world = _ := hworld
    exact hunfolds.start_chains hat
  | startAgain =>
    have hnone : s.request t f .start = none := by
      simp [Stage.request, StateMachine.isStarted, hat.isValid, hat.started_eq]
    rw [hnone]
    exact .of_none rfl (by simp) rfl
  | dispatch hvalid hunfolds =>
    obtain rfl : s.world = _ := hworld
    exact hunfolds.dispatch_chains hat hvalid
  | @refused v poolIsValid event hrefused =>
    have hnone : s.request t f (.dispatch poolIsValid event) = none := by
      cases event with
      | none => rfl
      | some event =>
        rcases hrefused with hstarted | hinvalid
        · simp [Stage.request, hat.current_eq, StateMachine.isStarted, hat.started_eq, hstarted]
        · simp [Stage.request, hat.current_eq, hinvalid event rfl]
    rw [hnone]
    exact .of_none rfl (by simp) rfl
  | environment => exact .of_none rfl (by simp) rfl

theorem Stage.Shows.isStarted {s : Stage H σ} {initial : H} {v : MachineView H σ} (h : s.Shows initial v) :
    s.machine.isStarted = v.started := by
  simp [StateMachine.isStarted, h.1.isValid, h.1.started_eq]

theorem Serves.keeps_started {initial : H} {v v' : MachineView H σ} {c : MachineCall σ}
    (h : Serves t f initial v c status calls v')
    (hc : v.started = true ∨ c = .start) : v'.started = true := by
  cases h with
  | start _ => rfl
  | startAgain => rfl
  | dispatch _ _ => rfl
  | refused _ => simpa using hc
  | environment => simpa using hc

theorem Unfolds.head {phase : Phase H} (h : Unfolds t f current phase begun world calls status last w') :
    calls.head? = some (current, phase.occasion t) := by
  cases h <;> rfl

theorem Serves.head_of_dispatch {initial : H} {v v' : MachineView H σ} {poolIsValid : Nat → Bool} {event : HeEvent}
    (h : Serves t f initial v (.dispatch poolIsValid (some event)) status calls v') (hstarted : v.started = true)
    (hvalid : event.isValid t poolIsValid = true) : calls.head? = some (v.current, event) := by
  cases h with
  | dispatch _ hunfolds => exact hunfolds.head
  | refused hrefused =>
    rcases hrefused with h | h
    · rw [hstarted] at h
      cases h
    · rw [h event rfl] at hvalid
      cases hvalid

end

theorem transitions_bounded (t : Target) (f : Handlers H σ) (m : StateMachine H) (initial : H) (world : σ)
    (hinit : (stateMachineInit m (some initial)).2 = .ok) (cs : List (MachineCall σ)) (c : MachineCall σ) :
    let s := (Stage.run t f ⟨(stateMachineInit m (some initial)).1, world, []⟩ cs).1
    let r := s.serve t f c
    transitionsIn t r.1.calls ≤ maxInitTransitions + 1 ∧
    (r.2 = .overflow ↔ ∃ l, chain t f (s.request t f c) maxInitTransitions = some l ∧
      l.follow t f ≠ .invalid) ∧
    (r.2 = .ok → ∀ first, s.request t f c = some first →
      ∃ n l w, chain t f (some first) n = some l ∧ l.follow t f = .rests w ∧
        r.1.machine.current = some l.target) ∧
    (s.machine.isStarted = true ∨ c = .start → ∀ before, s.machine.current = some before →
      r.1.machine.isStarted = true ∧
      ∀ poolIsValid event, event.isValid t poolIsValid = true →
        (r.1.serve t f (.dispatch poolIsValid (some event))).1.calls.head? =
          some (lastEntered t before r.1.calls, event)) := by
  intro s r
  obtain ⟨v, -, hv⟩ := (stateMachineInit_shows world hinit).run (t := t) (f := f) cs
  change s.Shows initial v at hv
  obtain ⟨v', hserves, hv'⟩ := hv.serve (t := t) (f := f) c
  change r.1.Shows initial v' at hv'
  have hchains := hserves.chains hv
  refine ⟨hchains.bounded, hchains.overflow, ?_, ?_⟩
  · intro hok first hfirst
    obtain ⟨n, l, w, hn, hrests, hlast⟩ := hchains.settled hok first hfirst
    exact ⟨n, l, w, hn, hrests, by rw [← hlast]; exact hv'.1.current_eq⟩
  · intro hc before hbefore
    obtain rfl : before = v.current := Option.some.inj (hbefore.symm.trans hv.1.current_eq)
    have hstarted : v'.started = true := by
      refine hserves.keeps_started (hc.imp_left ?_)
      rw [hv.isStarted]
      exact id
    refine ⟨by rw [hv'.isStarted, hstarted], ?_⟩
    intro poolIsValid event hvalid
    obtain ⟨v'', hnext, -⟩ := hv'.serve (t := t) (f := f) (.dispatch poolIsValid (some event))
    rw [hchains.entered]
    exact hnext.head_of_dispatch hstarted hvalid

def restless : Handlers Bool Nat := fun h world event =>
  if event.signal = sigEntry then ⟨[some (!h)], world + 1, .transition⟩ else ⟨[], world, .handled⟩

theorem transitions_bounded_restless :
    let s := (Stage.run Target.cortexM3 restless ⟨(stateMachineInit ⟨none, none, none, 0, false⟩ (some false)).1,
      0, []⟩ []).1
    let r := s.serve Target.cortexM3 restless .start
    r.2 = .overflow ∧ transitionsIn Target.cortexM3 r.1.calls = maxInitTransitions + 1 ∧
      (∃ l, chain Target.cortexM3 restless (s.request Target.cortexM3 restless .start) maxInitTransitions = some l ∧
        l.follow Target.cortexM3 restless ≠ .invalid) ∧
      r.1.machine.isStarted = true := by
  have hwhole := transitions_bounded Target.cortexM3 restless ⟨none, none, none, 0, false⟩ false 0 rfl [] .start
  exact ⟨by decide, by decide, hwhole.2.1.mp (by decide), (hwhole.2.2.2 (.inr rfl) false rfl).1⟩

end Hairtos
