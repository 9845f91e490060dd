import Hairtos.Properties.EventReferences

namespace Hairtos

def Loop.events : Loop → List Nat
  | .received event => [event]
  | .dispatch event => [event]
  | _ => []

namespace ActiveObject

def pending (x : ActiveObject) : List Nat := x.loop.events ++ x.slots

structure Tidy (x : ActiveObject) : Prop where
  waiting : x.loop = .waiting → x.slots = []
  fits : x.slots.length ≤ x.capacity

structure Handles (x x' : ActiveObject) (taken dispatched lost : List Nat) : Prop where
  tidy : x'.Tidy
  size : x'.capacity = x.capacity
  order : x.pending ++ taken = dispatched ++ lost ++ x'.pending
  whole : x'.loop ≠ .halted → lost = []
  halted : x.loop = .halted → dispatched = [] ∧ lost = [] ∧ x'.loop = .halted

variable {x x' : ActiveObject}

theorem Tidy.handles (h : x.Tidy) : x.Handles x [] [] [] :=
  ⟨h, rfl, by simp, fun _ => rfl, fun hh => ⟨rfl, rfl, hh⟩⟩

theorem Tidy.loops (h : x.Tidy) {loop : Loop} {dispatched lost : List Nat} (hloop : loop = .waiting → x.slots = [])
    (horder : x.loop.events = dispatched ++ lost ++ loop.events) (hwhole : loop ≠ .halted → lost = [])
    (hruns : x.loop ≠ .halted) : x.Handles { x with loop := loop } [] dispatched lost where
  tidy := ⟨hloop, h.fits⟩
  size := rfl
  order := by simp [pending, horder]
  whole := hwhole
  halted hhalted := absurd hhalted hruns

theorem Tidy.receives (h : x.Tidy) {event : Nat} {rest : List Nat} (hloop : x.loop = .receive)
    (hslots : x.slots = event :: rest) (taken : List Nat) (hone : taken.length ≤ 1) :
    x.Handles { x with slots := rest ++ taken, loop := .received event } taken [] [] where
  tidy := ⟨by simp, by
    have hfits := h.fits
    rw [hslots, List.length_cons] at hfits
    rw [List.length_append]
    exact (Nat.add_le_add_left hone _).trans hfits⟩
  size := rfl
  order := by simp [pending, hloop, hslots, Loop.events]
  whole _ := rfl
  halted hhalted := by simp [hloop] at hhalted

theorem Handles.trans {x₁ x₂ : ActiveObject} {taken₁ taken₂ dispatched₁ dispatched₂ lost₁ lost₂ :
    List Nat}
    (h₁ : x.Handles x₁ taken₁ dispatched₁ lost₁) (h₂ : x₁.Handles x₂ taken₂ dispatched₂ lost₂) :
    x.Handles x₂ (taken₁ ++ taken₂) (dispatched₁ ++ dispatched₂) (lost₁ ++ lost₂) := by
  have horder : x.pending ++ (taken₁ ++ taken₂) = dispatched₁ ++ lost₁ ++
    (dispatched₂ ++ lost₂ ++ x₂.pending) := by
    rw [← List.append_assoc, h₁.order, List.append_assoc, h₂.order]
  by_cases hhalted : x₁.loop = .halted
  · obtain ⟨rfl, rfl, hhalted₂⟩ := h₂.halted hhalted
    refine ⟨h₂.tidy,
      h₂.size.trans h₁.size, by simpa using horder, fun hruns => absurd hhalted₂ hruns, fun hx => ?_⟩
    obtain ⟨rfl, rfl, -⟩ := h₁.halted hx
    exact ⟨rfl, rfl, hhalted₂⟩
  · obtain rfl := h₁.whole hhalted
    exact ⟨h₂.tidy,
      h₂.size.trans h₁.size, by simpa using horder, h₂.whole, fun hx => absurd (h₁.halted hx).2.2 hhalted⟩

end ActiveObject

namespace EventSystem

variable {C A : Type}

section

variable [DecidableEq A]

/-- The event that the queue of an active object takes over in a step: that of a sender who finds the loop waiting or a
free slot, or that of a blocked sender who gets the slot the loop empties. -/
def takes (s : EventSystem C A) (a : A) : EventOp C A → List Nat
  | .advance c =>
    match (s.threads c).activity with
    | .send origin target =>
      if target = a ∧ ((s.actives a).loop = .waiting ∨ (s.actives a).slots.length < (s.actives a).capacity) then
        [origin.event]
      else []
    | _ => []
  | .loop b _ sender =>
    if b = a ∧ (s.actives a).loop = .receive ∧ (s.actives a).slots ≠ [] then
      match (s.threads sender).activity with
      | .blocked origin target => if target = a then [origin.event] else []
      | _ => []
    else []
  | _ => []

def dispatches (s : EventSystem C A) (a : A) : EventOp C A → List Nat
  | .loop b _ _ =>
    match (s.actives b).loop with
    | .dispatch event => if b = a then [event] else []
    | _ => []
  | _ => []

end

variable [DecidableEq C] {t : Target} {s : EventSystem C A} {a : A} {c : C}

theorem proceed_actives (s : EventSystem C A) (c : C) (o : Onward A) : (s.proceed c o).actives = s.actives :=
  (proceed_frame s c o).2.1

variable [DecidableEq A]

omit [DecidableEq C] in
theorem setActive_actives (s : EventSystem C A) (b : A) (x : ActiveObject) :
    (s.setActive b x).actives = Function.update s.actives b x := rfl

def observed (t : Target) (observe : EventSystem C A → EventOp C A → List Nat) (s : EventSystem C A) :
    List (EventOp C A) → List Nat
  | [] => []
  | op :: ops => observe s op ++ observed t observe (s.step t op) ops

theorem advance_actives (h : ∀ origin target, (s.threads c).activity ≠ .send origin target) :
    (s.advance t c).actives = s.actives := by
  rw [advance]
  cases hact : (s.threads c).activity with
  | send origin target => exact absurd hact (h origin target)
  | retain taking | retainLocked taking | release giving | releaseLocked giving pool | post origin target =>
    simp only [check, retained_eq, released_eq, posted_eq]
    try split_ifs
    all_goals first | rfl | exact proceed_actives _ _ _
  | publishing p =>
    dsimp only
    split <;> rfl
  | create | publish | consume =>
    dsimp only
    split_ifs <;> rfl
  | _ => rfl

theorem send_handles (h : (s.actives a).Tidy) (c : C) (origin : Origin A) (target : A) :
    (s.actives a).Handles ((s.send c origin target).actives a)
      (if target = a ∧ ((s.actives a).loop = .waiting ∨ (s.actives a).slots.length < (s.actives a).capacity) then
        [origin.event] else []) [] [] := by
  simp only [send, posted_eq]
  by_cases hwaiting : (s.actives target).loop = .waiting
  · rw [if_pos hwaiting, proceed_actives, setActive_actives]
    by_cases ht : target = a
    · subst ht
      rw [Function.update_self, if_pos ⟨rfl, .inl hwaiting⟩]
      refine ⟨⟨by simp, h.fits⟩, rfl, ?_, fun _ => rfl, fun hh => ?_⟩
      · simp [ActiveObject.pending, Loop.events, h.waiting hwaiting, hwaiting]
      · simp [hwaiting] at hh
    · rw [Function.update_of_ne (Ne.symm ht), if_neg (fun hand => ht hand.1)]
      exact h.handles
  · rw [if_neg hwaiting]
    by_cases hroom : (s.actives target).slots.length < (s.actives target).capacity
    · rw [if_pos hroom, proceed_actives, setActive_actives]
      by_cases ht : target = a
      · subst ht
        rw [Function.update_self, if_pos ⟨rfl, .inr hroom⟩]
        refine ⟨⟨fun hw => absurd hw hwaiting, ?_⟩, rfl, ?_, fun _ => rfl, fun hh => ⟨rfl, rfl, hh⟩⟩
        · simpa using Nat.succ_le_of_lt hroom
        · simp [ActiveObject.pending]
      · rw [Function.update_of_ne (Ne.symm ht), if_neg (fun hand => ht hand.1)]
        exact h.handles
    · -- A full queue refuses the sender or blocks them: it takes nothing over.
      have hnone : ¬ (target = a ∧
          ((s.actives a).loop = .waiting ∨ (s.actives a).slots.length < (s.actives a).capacity)) := by
        rintro ⟨rfl, hw | hr⟩
        · exact hwaiting hw
        · exact hroom hr
      rw [if_neg hroom, if_neg hnone]
      split
      · rw [proceed_actives]
        exact h.handles
      · exact h.handles

theorem runLoop_actives_of_ne {b : A} (hne : a ≠ b) (status : Status) (sender : C) :
    (s.runLoop t b status sender).actives a = s.actives a := by
  have hset : ∀ (s : EventSystem C A) x, (s.setActive b x).actives a = s.actives a := fun s x =>
    Function.update_of_ne hne ..
  simp only [runLoop, receive, goLoop, check, posted_eq]
  split
  · exact hset _ _
  · split
    · exact hset _ _
    · split
      · split
        · rw [proceed_actives]
          exact hset _ _
        · exact hset _ _
      · exact hset _ _
  · rfl
  · split <;> exact hset _ _
  · exact hset _ _
  · split_ifs <;> exact hset _ _
  · exact hset _ _
  · rfl

theorem receive_handles (h : (s.actives a).Tidy) (hloop : (s.actives a).loop = .receive) (status : Status)
    (sender : C) :
    (s.actives a).Handles ((s.receive a sender).actives a) (s.takes a (.loop a status sender)) [] [] := by
  rw [receive, takes]
  cases hslots : (s.actives a).slots with
  | nil =>
    rw [if_neg (fun hand => hand.2.2 rfl), goLoop, setActive_actives, Function.update_self]
    exact h.loops (fun _ => hslots) (by simp [hloop, Loop.events]) (fun _ => rfl) (by simp [hloop])
  | cons event rest =>
    have hnone := h.receives hloop hslots [] (Nat.zero_le 1)
    rw [List.append_nil] at hnone
    rw [if_pos ⟨rfl, hloop, List.cons_ne_nil event rest⟩]
    cases (s.threads sender).activity with
    | blocked origin target =>
      dsimp only
      split_ifs
      · rw [posted_eq, proceed_actives, setActive_actives, Function.update_self]
        exact h.receives hloop hslots [origin.event] (Nat.le_refl 1)
      · rw [setActive_actives, Function.update_self]
        exact hnone
    | _ =>
      dsimp only
      rw [setActive_actives, Function.update_self]
      exact hnone

omit [DecidableEq C] in
theorem goLoop_handles {s' : EventSystem C A} (h : (s.actives a).Tidy) (hs : s'.actives = s.actives)
    {before loop : Loop} (hloop : (s.actives a).loop = before) {dispatched lost : List Nat}
    (hwaiting : loop ≠ .waiting)
    (horder : before.events = dispatched ++ lost ++ loop.events) (hwhole : loop ≠ .halted → lost = [])
    (hruns : before ≠ .halted) :
    (s.actives a).Handles ((s'.goLoop a loop).actives a) [] dispatched lost := by
  subst hloop
  rw [goLoop, setActive_actives, Function.update_self, hs]
  exact h.loops (fun hw => absurd hw hwaiting) horder hwhole hruns

theorem loopOn_events (status : Status) : loopOn status ≠ .waiting ∧ (loopOn status).events = [] := by
  rw [loopOn]
  split <;> exact ⟨by simp, rfl⟩

theorem runLoop_handles (h : (s.actives a).Tidy) (status : Status) (sender : C) :
    ∃ lost, (s.actives a).Handles ((s.runLoop t a status sender).actives a) (s.takes a (.loop a status sender))
      (s.dispatches a (.loop a status sender : EventOp C A)) lost := by
  by_cases hreceive : (s.actives a).loop = .receive
  · refine ⟨[], ?_⟩
    simpa only [runLoop, dispatches, hreceive] using receive_handles h hreceive status sender
  · have htakes : s.takes a (.loop a status sender) = [] := if_neg (fun hand => hreceive hand.2.1)
    -- Neither `start` nor `release` holds an event, so going on loses none, whatever the status.
    have hon : ∀ {s' : EventSystem C A} {status before}, s'.actives = s.actives → (s.actives a).loop = before →
        before.events = [] → before ≠ .halted →
        (s.actives a).Handles ((s'.goLoop a (loopOn status)).actives a) [] [] [] := fun hs hloop hevents hruns =>
      goLoop_handles h hs hloop (loopOn_events _).1 (by simp [hevents, (loopOn_events _).2]) (fun _ => rfl) hruns
    rw [htakes]
    simp only [runLoop, dispatches, if_true]
    cases hloop : (s.actives a).loop with
    | receive => exact absurd hloop hreceive
    | start => exact ⟨[], hon rfl hloop rfl (by simp)⟩
    | waiting => exact ⟨[], h.handles⟩
    | halted => exact ⟨[], h.handles⟩
    | received event =>
      dsimp only
      split
      · exact ⟨[], goLoop_handles h rfl hloop (by simp) rfl (fun _ => rfl) (by simp)⟩
      · exact ⟨[event], goLoop_handles h rfl hloop (by simp) rfl (absurd rfl) (by simp)⟩
    | dispatch event =>
      exact ⟨[], goLoop_handles h rfl hloop (by simp) rfl (fun _ => rfl) (by simp)⟩
    | release event status =>
      refine ⟨[], ?_⟩
      simp only [check]
      split_ifs
      · exact hon rfl hloop rfl (by simp)
      · exact hon rfl hloop rfl (by simp)
      · exact goLoop_handles h rfl hloop (by simp) rfl (fun _ => rfl) (by simp)
    | releaseLocked event pool status => exact ⟨[], hon rfl hloop rfl (by simp)⟩

theorem step_handles (h : (s.actives a).Tidy) (op : EventOp C A) :
    ∃ lost, (s.actives a).Handles ((s.step t op).actives a) (s.takes a op) (s.dispatches a op) lost := by
  cases op with
  | call c request =>
    refine ⟨[], ?_⟩
    simp only [step]
    split
    · cases request <;> exact h.handles
    · exact h.handles
  | advance c =>
    refine ⟨[], ?_⟩
    by_cases hsend : ∃ origin target, (s.threads c).activity = .send origin target
    · obtain ⟨origin, target, hact⟩ := hsend
      simpa only [step, advance, takes, dispatches, hact] using send_handles h c origin target
    · have hnot : ∀ origin target, (s.threads c).activity ≠ .send origin target := fun origin target hact =>
        hsend ⟨origin, target, hact⟩
      rw [step, advance_actives hnot]
      have htakes : s.takes a (.advance c) = [] := by simp only [takes]
      rw [htakes]
      exact h.handles
  | fail c status =>
    refine ⟨[], ?_⟩
    simp only [step, fail, posted_eq]
    split
    · exact h.handles
    · split
      · rw [proceed_actives]
        exact h.handles
      · rw [proceed_actives]
        exact h.handles
      · exact h.handles
  | loop b status sender =>
    by_cases hb : b = a
    · subst hb
      exact runLoop_handles h status sender
    · refine ⟨[], ?_⟩
      have hdispatches : s.dispatches a (.loop b status sender : EventOp C A) = [] := by
        simp only [dispatches, hb, if_false]
        split <;> rfl
      rw [step, runLoop_actives_of_ne (Ne.symm hb), hdispatches, takes, if_neg (fun hand => hb hand.1)]
      exact h.handles

theorem run_handles (t : Target) (a : A) (ops : List (EventOp C A)) :
    ∀ {s : EventSystem C A}, (s.actives a).Tidy → ∃ lost, (s.actives a).Handles ((s.run t ops).actives a)
      (s.observed t (·.takes a) ops) (s.observed t (·.dispatches a) ops) lost := by
  induction ops with
  | nil => exact fun h => ⟨[], h.handles⟩
  | cons op ops ih =>
    intro s h
    obtain ⟨lost, hstep⟩ := step_handles (t := t) h op
    obtain ⟨losts, hrun⟩ := ih hstep.tidy
    exact ⟨lost ++ losts, hstep.trans hrun⟩

/-- Each active object dispatches the events its queue has taken over, in that order and each once; while its loop
runs, the others wait in the loop and in the queue, which never holds more than its capacity. -/
theorem active_events_in_order (t : Target) (s : EventSystem C A) (a : A) (hslots : (s.actives a).slots = [])
    (hloop : (s.actives a).loop = .start) (ops : List (EventOp C A)) :
    ((s.run t ops).actives a).slots.length ≤ (s.actives a).capacity ∧
      s.observed t (·.dispatches a) ops <+: s.observed t (·.takes a) ops ∧
      (((s.run t ops).actives a).loop ≠ .halted → s.observed t (·.takes a) ops =
        s.observed t (·.dispatches a) ops ++ (((s.run t ops).actives a).loop.events ++
          ((s.run t ops).actives a).slots)) := by
  have hidle : (s.actives a).Tidy := ⟨fun _ => hslots, by simp [hslots]⟩
  obtain ⟨lost, h⟩ := run_handles t a ops hidle
  have horder : s.observed t (·.takes a) ops =
      s.observed t (·.dispatches a) ops ++ (lost ++ ((s.run t ops).actives a).pending) := by
    rw [← List.append_assoc, ← h.order, ActiveObject.pending, hslots, hloop]
    rfl
  refine ⟨h.size ▸ h.tidy.fits, ⟨_, horder.symm⟩, fun hruns => ?_⟩
  rw [horder, h.whole hruns]
  rfl

end EventSystem

def streamEvents : EventSystem Bool Unit :=
  { boardEvents with
    store := (eventPoolInit Target.cortexM3 ⟨fun _ => ⟨0, 0, 0, 0, 0, 0⟩, fun _ => 0⟩ 0x20001000
      0x20000000 32 4).1
    actives := fun _ => ⟨true, 3, [], .start⟩ }

/-- The client posts four events before the loop starts, and waits with the last of them. -/
def streamOps : List (EventOp Bool Unit) :=
  (List.range 4).flatMap (fun i =>
      [.call false (.new 0x20001000 32#16 20), .advance false, .advance false,
        .call false (.post () (0x20000000 + 32 * i) true), .advance false, .advance false]) ++
    List.replicate 21 (.loop () .ok false)

theorem active_events_in_order_streamOps :
    (streamEvents.observed Target.cortexM3 (·.dispatches ()) streamOps =
        [0x20000000, 0x20000020, 0x20000040, 0x20000060]) ∧
      streamEvents.observed Target.cortexM3 (·.dispatches ()) streamOps <+:
        streamEvents.observed Target.cortexM3 (·.takes ()) streamOps ∧
      ((streamEvents.run Target.cortexM3 (streamOps.take 24)).actives ()).slots.length = 3 := by
  have h := EventSystem.active_events_in_order Target.cortexM3 streamEvents () rfl rfl streamOps
  exact ⟨by decide +kernel, h.2.1, by decide +kernel⟩

end Hairtos
