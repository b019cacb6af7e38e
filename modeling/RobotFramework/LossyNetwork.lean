import Mathlib.Logic.Function.Basic
import RobotFramework.History

/-!
# Parties that send to an observer

Each party is a machine of its own, and what it sends is in flight until it reaches the observer or is
lost. Messages are delayed, overtake each other and get lost; none is made up and none comes twice. An
invariant of the parties, the messages and the observer holds after every interleaving if each of them
keeps its part (`Rule.holds_run`). A party depends on its own events only (`party_run`) and the observer on
what reaches it (`observer_run`), and what has reached it over a channel that keeps the order and what is in
flight there is what was sent (`received_inOrder`).
-/

namespace LossyNetwork

open History

variable {ι σ ε α τ β : Type} [DecidableEq ι]

/-- What the parties and the observer do. -/
structure System (ι σ ε α τ β : Type) where
  /-- A step of a party, and what it sends. -/
  act : ι → σ → ε → σ × List α
  /-- A message of a party reaches the observer. -/
  receive : τ → ι → α → τ
  /-- The observer does something by itself. -/
  observe : τ → β → τ

/-- The parties, what each has sent and what of it is in flight, and the observer. -/
structure World (ι σ α τ : Type) where
  parties : ι → σ
  sent : ι → List α
  inFlight : ι → List α
  observer : τ

/-- What can happen. -/
inductive Action (ι ε β : Type) where
  | act (i : ι) (e : ε)
  | deliver (i : ι) (k : Nat)
  | lose (i : ι) (k : Nat)
  | observe (b : β)

/-- The world after an action. A message that is not there is neither delivered nor lost. -/
def step (sys : System ι σ ε α τ β) (w : World ι σ α τ) : Action ι ε β → World ι σ α τ
  | .act i e =>
    let (s, messages) := sys.act i (w.parties i) e
    { w with
      parties := Function.update w.parties i s
      sent := Function.update w.sent i (w.sent i ++ messages)
      inFlight := Function.update w.inFlight i (w.inFlight i ++ messages) }
  | .deliver i k =>
    match (w.inFlight i)[k]? with
    | some message =>
      { w with
        inFlight := Function.update w.inFlight i ((w.inFlight i).eraseIdx k)
        observer := sys.receive w.observer i message }
    | none => w
  | .lose i k => { w with inFlight := Function.update w.inFlight i ((w.inFlight i).eraseIdx k) }
  | .observe b => { w with observer := sys.observe w.observer b }

theorem step_deliver_none {sys : System ι σ ε α τ β} {w : World ι σ α τ} {i : ι} {k : Nat}
    (h : (w.inFlight i)[k]? = none) : step sys w (.deliver i k) = w := by
  unfold step
  dsimp only
  rw [h]

theorem step_deliver_some {sys : System ι σ ε α τ β} {w : World ι σ α τ} {i : ι} {k : Nat} {m : α}
    (h : (w.inFlight i)[k]? = some m) :
    step sys w (.deliver i k) =
      { w with
        inFlight := Function.update w.inFlight i ((w.inFlight i).eraseIdx k)
        observer := sys.receive w.observer i m } := by
  unfold step
  dsimp only
  rw [h]

def World.initial (parties : ι → σ) (observer : τ) : World ι σ α τ where
  parties := parties
  sent _ := []
  inFlight _ := []
  observer := observer

/-! ## Invariants -/

/-- What has been sent only grows. -/
def Grows (sent sent' : ι → List α) : Prop := ∀ i, sent i ⊆ sent' i

/-- A property of each party, of each message, and of the observer and what has been sent, that every
step keeps. -/
structure Rule (sys : System ι σ ε α τ β) (I : ι → σ → Prop) (P : ι → α → Prop)
    (J : (ι → List α) → τ → Prop) : Prop where
  act : ∀ i s e, I i s → I i (sys.act i s e).1 ∧ ∀ m ∈ (sys.act i s e).2, P i m
  grows : ∀ sent sent' t, Grows sent sent' → J sent t → J sent' t
  receive : ∀ sent t i m, J sent t → m ∈ sent i → P i m → J sent (sys.receive t i m)
  observe : ∀ sent t b, J sent t → J sent (sys.observe t b)

/-- The invariant of the world that a rule gives. -/
structure Holds (I : ι → σ → Prop) (P : ι → α → Prop) (J : (ι → List α) → τ → Prop)
    (w : World ι σ α τ) : Prop where
  parties : ∀ i, I i (w.parties i)
  sent : ∀ i, ∀ m ∈ w.sent i, P i m
  inFlight : ∀ i, w.inFlight i ⊆ w.sent i
  observer : J w.sent w.observer

variable {sys : System ι σ ε α τ β} {I : ι → σ → Prop} {P : ι → α → Prop}
  {J : (ι → List α) → τ → Prop} {w : World ι σ α τ}

theorem Holds.erase (h : Holds I P J w) (i : ι) (k : Nat) (j : ι) :
    Function.update w.inFlight i ((w.inFlight i).eraseIdx k) j ⊆ w.sent j := by
  by_cases hj : j = i
  · subst hj
    rw [Function.update_self]
    exact List.Subset.trans List.eraseIdx_subset (h.inFlight j)
  · rw [Function.update_of_ne hj]
    exact h.inFlight j

theorem Rule.holds_step (r : Rule sys I P J) (h : Holds I P J w) (a : Action ι ε β) :
    Holds I P J (step sys w a) := by
  cases a with
  | act i e =>
    obtain ⟨hparty, hmessages⟩ := r.act i _ e (h.parties i)
    have hgrows : Grows w.sent (Function.update w.sent i (w.sent i ++ (sys.act i (w.parties i) e).2)) := by
      intro j
      by_cases hj : j = i
      · subst hj
        rw [Function.update_self]
        exact List.subset_append_left _ _
      · rw [Function.update_of_ne hj]
        exact List.Subset.refl _
    refine ⟨fun j => ?_, fun j => ?_, fun j => ?_, r.grows _ _ _ hgrows h.observer⟩
    · by_cases hj : j = i
      · subst hj
        simpa [step] using hparty
      · simpa [step, hj] using h.parties j
    · by_cases hj : j = i
      · subst hj
        simp only [step, Function.update_self]
        exact List.forall_mem_append.mpr ⟨h.sent j, hmessages⟩
      · simpa [step, hj] using h.sent j
    · by_cases hj : j = i
      · subst hj
        simp only [step, Function.update_self]
        exact List.append_subset.mpr
          ⟨List.Subset.trans (h.inFlight j) (List.subset_append_left _ _), List.subset_append_right _ _⟩
      · simpa [step, hj] using h.inFlight j
  | deliver i k =>
    cases hmessage : (w.inFlight i)[k]? with
    | none =>
      rw [step_deliver_none hmessage]
      exact h
    | some m =>
      rw [step_deliver_some hmessage]
      have hsent : m ∈ w.sent i := h.inFlight i (List.mem_of_getElem? hmessage)
      exact ⟨h.parties, h.sent, h.erase i k, r.receive _ _ i m h.observer hsent (h.sent i m hsent)⟩
  | lose i k => exact ⟨h.parties, h.sent, h.erase i k, h.observer⟩
  | observe b => exact ⟨h.parties, h.sent, h.inFlight, r.observe _ _ b h.observer⟩

theorem Rule.holds_run (r : Rule sys I P J) {parties : ι → σ} {observer : τ}
    (hparties : ∀ i, I i (parties i)) (hobserver : J (fun _ => []) observer)
    (actions : List (Action ι ε β)) :
    Holds I P J (run (step sys) (.initial parties observer) actions) := by
  refine run_invariant (I := fun _ w => Holds I P J w) ?_ (fun _ _ a h => r.holds_step h a) actions
  exact ⟨hparties, fun i m hm => absurd hm List.not_mem_nil, fun i => List.Subset.refl _, hobserver⟩

/-! ## What a party sends -/

/-- What an action is to a party. -/
def Action.eventOf (i : ι) : Action ι ε β → Option ε
  | .act j e => if j = i then some e else none
  | _ => none

def eventsOf (i : ι) (actions : List (Action ι ε β)) : List ε := actions.filterMap (·.eventOf i)

theorem eventsOf_concat (i : ι) (actions : List (Action ι ε β)) (a : Action ι ε β) :
    eventsOf i (actions ++ [a]) = eventsOf i actions ++ (a.eventOf i).toList := by
  unfold eventsOf
  rw [List.filterMap_append]
  cases h : a.eventOf i with
  | none => simp [h]
  | some e => simp [h]

theorem eq_act_of_eventOf {i : ι} {a : Action ι ε β} {e : ε} (h : a.eventOf i = some e) : a = .act i e := by
  cases a with
  | act j e' =>
    unfold Action.eventOf at h
    dsimp only at h
    split_ifs at h with hj
    rw [hj, Option.some.inj h]
  | deliver j k | lose j k | observe b => cases h

theorem step_of_eventOf_none (sys : System ι σ ε α τ β) (w : World ι σ α τ) {i : ι} {a : Action ι ε β}
    (h : a.eventOf i = none) :
    (step sys w a).parties i = w.parties i ∧ (step sys w a).sent i = w.sent i := by
  cases a with
  | act j e =>
    have hj : i ≠ j := by
      rintro rfl
      simp [Action.eventOf] at h
    simp [step, hj]
  | deliver j k =>
    cases hmessage : (w.inFlight j)[k]? with
    | none =>
      rw [step_deliver_none hmessage]
      exact ⟨rfl, rfl⟩
    | some m =>
      rw [step_deliver_some hmessage]
      exact ⟨rfl, rfl⟩
  | lose j k => exact ⟨rfl, rfl⟩
  | observe b => exact ⟨rfl, rfl⟩

theorem party_run (sys : System ι σ ε α τ β) (parties : ι → σ) (observer : τ) (i : ι)
    (actions : List (Action ι ε β)) :
    let w := run (step sys) (.initial parties observer) actions
    w.parties i = run (fun s e => (sys.act i s e).1) (parties i) (eventsOf i actions) ∧
      w.sent i = emitted (fun s e => (sys.act i s e).1) (fun s e => (sys.act i s e).2) (parties i)
        (eventsOf i actions) := by
  refine run_invariant (I := fun actions (w : World ι σ α τ) =>
    w.parties i = run (fun s e => (sys.act i s e).1) (parties i) (eventsOf i actions) ∧
      w.sent i = emitted (fun s e => (sys.act i s e).1) (fun s e => (sys.act i s e).2) (parties i)
        (eventsOf i actions)) ⟨rfl, rfl⟩ ?_ actions
  rintro past w a ⟨hparty, hsent⟩
  rw [eventsOf_concat]
  cases h : a.eventOf i with
  | none =>
    obtain ⟨hparty', hsent'⟩ := step_of_eventOf_none sys w h
    rw [hparty', hsent', Option.toList_none, List.append_nil]
    exact ⟨hparty, hsent⟩
  | some e =>
    obtain rfl := eq_act_of_eventOf h
    rw [Option.toList_some, run_concat, emitted_concat, ← hparty, ← hsent]
    simp [step]

/-! ## What reaches the observer -/

/-- What the observer takes: a message of a party, or what it does by itself. -/
inductive Input (ι α β : Type) where
  | receive (i : ι) (m : α)
  | observe (b : β)

def System.take (sys : System ι σ ε α τ β) (t : τ) : Input ι α β → τ
  | .receive i m => sys.receive t i m
  | .observe b => sys.observe t b

/-- What an action brings to the observer. -/
def Action.input (w : World ι σ α τ) : Action ι ε β → Option (Input ι α β)
  | .deliver i k => (w.inFlight i)[k]?.map (.receive i)
  | .observe b => some (.observe b)
  | _ => none

/-- What reaches the observer in a run, in its order. -/
def inputs (sys : System ι σ ε α τ β) (w : World ι σ α τ) (actions : List (Action ι ε β)) :
    List (Input ι α β) :=
  emitted (step sys) (fun w a => (a.input w).toList) w actions

theorem inputs_concat (sys : System ι σ ε α τ β) (w : World ι σ α τ) (actions : List (Action ι ε β))
    (a : Action ι ε β) :
    inputs sys w (actions ++ [a]) = inputs sys w actions ++ (a.input (run (step sys) w actions)).toList :=
  emitted_concat _ _ w actions a

theorem step_observer (sys : System ι σ ε α τ β) (w : World ι σ α τ) (a : Action ι ε β) :
    (step sys w a).observer = run sys.take w.observer (a.input w).toList := by
  cases a with
  | act j e | lose j k | observe b => rfl
  | deliver j k =>
    show _ = run sys.take w.observer ((w.inFlight j)[k]?.map (Input.receive j)).toList
    cases hmessage : (w.inFlight j)[k]? with
    | none =>
      rw [step_deliver_none hmessage]
      rfl
    | some m =>
      rw [step_deliver_some hmessage]
      rfl

theorem observer_run (sys : System ι σ ε α τ β) (w : World ι σ α τ) (actions : List (Action ι ε β)) :
    (run (step sys) w actions).observer = run sys.take w.observer (inputs sys w actions) :=
  run_emitted World.observer (step_observer sys) w actions

theorem Rule.input (r : Rule sys I P J) {parties : ι → σ} {observer : τ} (hparties : ∀ i, I i (parties i))
    (hobserver : J (fun _ => []) observer) {actions : List (Action ι ε β)} {i : ι} {m : α}
    (h : .receive i m ∈ inputs sys (.initial parties observer) actions) : P i m := by
  obtain ⟨past, a, later, -, ha⟩ := mem_emitted h
  have hholds := r.holds_run hparties hobserver past
  rw [Option.mem_toList] at ha
  cases a with
  | deliver j k =>
    obtain ⟨x, hx, hinput⟩ := Option.map_eq_some_iff.mp ha
    obtain ⟨rfl, rfl⟩ := Input.receive.inj hinput
    exact hholds.sent j x (hholds.inFlight j (List.mem_of_getElem? hx))
  | observe b =>
    cases ha
  | act j e | lose j k => cases ha

/-- What the observer does by itself. -/
def Action.observation : Action ι ε β → Option β
  | .observe b => some b
  | _ => none

def Input.observation : Input ι α β → Option β
  | .observe b => some b
  | .receive _ _ => none

theorem observations_inputs (sys : System ι σ ε α τ β) (w : World ι σ α τ) (actions : List (Action ι ε β)) :
    (inputs sys w actions).filterMap Input.observation = actions.filterMap Action.observation := by
  induction actions using List.reverseRecOn with
  | nil => rfl
  | append_singleton past a ih =>
    rw [inputs_concat, List.filterMap_append, List.filterMap_append, ih]
    congr 1
    cases a with
    | act j e | lose j k | observe b => rfl
    | deliver j k =>
      show (((run (step sys) w past).inFlight j)[k]?.map (Input.receive j)).toList.filterMap _ = []
      cases ((run (step sys) w past).inFlight j)[k]? with
      | none => rfl
      | some m => rfl

/-! ## A channel that keeps the order -/

/-- The message of a party in an input. -/
def Input.messageOf (i : ι) : Input ι α β → Option α
  | .receive j m => if j = i then some m else none
  | .observe _ => none

/-- The messages of a party among the inputs. -/
def receivedOf (i : ι) (inputs : List (Input ι α β)) : List α := inputs.filterMap (·.messageOf i)

/-- The messages of a party are delivered in their order, and none is lost. -/
def InOrder (i : ι) (actions : List (Action ι ε β)) : Prop :=
  ∀ k, .lose i k ∉ actions ∧ (.deliver i k ∈ actions → k = 0)

theorem step_inOrder (sys : System ι σ ε α τ β) (w : World ι σ α τ) {i : ι} {a : Action ι ε β}
    (h : InOrder i [a]) :
    ∃ messages, (step sys w a).sent i = w.sent i ++ messages ∧
      receivedOf i (a.input w).toList ++ (step sys w a).inFlight i = w.inFlight i ++ messages := by
  have hunchanged (v : World ι σ α τ) (hsent : v.sent i = w.sent i)
      (hflight : receivedOf i (a.input w).toList ++ v.inFlight i = w.inFlight i) :
      ∃ messages, v.sent i = w.sent i ++ messages ∧
        receivedOf i (a.input w).toList ++ v.inFlight i = w.inFlight i ++ messages :=
    ⟨[], by rw [List.append_nil, hsent], by rw [List.append_nil, hflight]⟩
  cases a with
  | act j e =>
    by_cases hj : j = i
    · subst hj
      exact ⟨(sys.act j (w.parties j) e).2, Function.update_self .., Function.update_self ..⟩
    · exact hunchanged _ (Function.update_of_ne (Ne.symm hj) ..) (Function.update_of_ne (Ne.symm hj) ..)
  | deliver j k =>
    have hinput : (Action.deliver j k : Action ι ε β).input w = (w.inFlight j)[k]?.map (Input.receive j) := rfl
    cases hmessage : (w.inFlight j)[k]? with
    | none =>
      rw [step_deliver_none hmessage]
      refine hunchanged w rfl ?_
      rw [hinput, hmessage]
      rfl
    | some m =>
      rw [step_deliver_some hmessage]
      refine hunchanged _ rfl ?_
      rw [hinput, hmessage]
      show (if j = i then some m else none).toList ++ Function.update w.inFlight j _ i = w.inFlight i
      by_cases hj : j = i
      · subst hj
        obtain rfl := (h k).2 (List.mem_singleton_self _)
        rw [if_pos rfl, Function.update_self]
        cases hflight : w.inFlight j with
        | nil => simp [hflight] at hmessage
        | cons x rest =>
          have hx : x = m := by simpa [hflight] using hmessage
          rw [hx]
          rfl
      · rw [if_neg hj, Function.update_of_ne (Ne.symm hj)]
        rfl
  | lose j k =>
    have hj : i ≠ j := by
      rintro rfl
      exact (h k).1 (List.mem_singleton_self _)
    exact hunchanged _ rfl (Function.update_of_ne hj ..)
  | observe b => exact hunchanged _ rfl rfl

/-- What was received in order and what is in flight is what was sent. -/
theorem received_inOrder (sys : System ι σ ε α τ β) (parties : ι → σ) (observer : τ) {i : ι}
    (actions : List (Action ι ε β)) (h : InOrder i actions) :
    let w := run (step sys) (.initial parties observer) actions
    receivedOf i (inputs sys (.initial parties observer) actions) ++ w.inFlight i = w.sent i := by
  dsimp only
  induction actions using List.reverseRecOn with
  | nil => rfl
  | append_singleton past a ih =>
    have hpast : InOrder i past := fun k =>
      ⟨fun hk => (h k).1 (List.mem_append_left _ hk), fun hk => (h k).2 (List.mem_append_left _ hk)⟩
    have hlast : InOrder i [a] := fun k =>
      ⟨fun hk => (h k).1 (List.mem_append_right _ hk), fun hk => (h k).2 (List.mem_append_right _ hk)⟩
    obtain ⟨messages, hsent, hflight⟩ :=
      step_inOrder sys (run (step sys) (.initial parties observer) past) hlast
    rw [run_concat, inputs_concat, hsent, ← ih hpast]
    unfold receivedOf at hflight ⊢
    rw [List.filterMap_append, List.append_assoc, hflight, List.append_assoc]

theorem exists_of_receivedOf {i : ι} {taken : List (Input ι α β)} {earlier : List α} {m : α}
    (h : receivedOf i taken = earlier ++ [m]) :
    ∃ before after, taken = before ++ .receive i m :: after ∧ ∀ x, .receive i x ∉ after := by
  obtain ⟨first, rest, rfl, -, hrest⟩ := List.filterMap_eq_append_iff.mp h
  obtain ⟨others, input, after, rfl, -, hinput, hafter⟩ := List.filterMap_eq_cons_iff.mp hrest
  obtain rfl : input = .receive i m := by
    cases input with
    | observe b => cases hinput
    | receive j x =>
      unfold Input.messageOf at hinput
      dsimp only at hinput
      split_ifs at hinput with hj
      rw [hj, Option.some.inj hinput]
  refine ⟨first ++ others, after, (List.append_assoc ..).symm, fun x hx => ?_⟩
  have hnone := List.filterMap_eq_nil_iff.mp hafter _ hx
  simp [Input.messageOf] at hnone

/-! ## A party that is silent -/

/-- A party sends nothing while a property of it holds that its steps keep. -/
structure Silent (sys : System ι σ ε α τ β) (i : ι) (S : σ → Prop) (allowed : ε → Prop) : Prop where
  act : ∀ s e, S s → allowed e → S (sys.act i s e).1 ∧ (sys.act i s e).2 = []

/-- The steps of a party in a run are allowed. -/
def Allows (i : ι) (allowed : ε → Prop) (actions : List (Action ι ε β)) : Prop :=
  ∀ e, .act i e ∈ actions → allowed e

/-- While a party is silent and nothing of it is in flight, it has sent no more than before and nothing of
it reaches the observer: what does not change by the other messages and by the observer itself does not
change. -/
theorem Silent.run {i : ι} {S : σ → Prop} {allowed : ε → Prop} (h : Silent sys i S allowed)
    {V : τ → Prop} (hreceive : ∀ t j m, j ≠ i → V t → V (sys.receive t j m))
    (hobserve : ∀ t b, V t → V (sys.observe t b)) {actions : List (Action ι ε β)}
    (hallows : Allows i allowed actions) (hparty : S (w.parties i)) (hflight : w.inFlight i = [])
    (hobserver : V w.observer) :
    (History.run (step sys) w actions).sent i = w.sent i ∧
      V (History.run (step sys) w actions).observer := by
  induction actions generalizing w with
  | nil => exact ⟨rfl, hobserver⟩
  | cons a actions ih =>
    have hrest : Allows i allowed actions := fun e he => hallows e (List.mem_cons_of_mem a he)
    rw [run_cons]
    cases a with
    | act j e =>
      by_cases hj : i = j
      · subst hj
        obtain ⟨hkept, hnone⟩ := h.act _ e hparty (hallows e List.mem_cons_self)
        obtain ⟨hsent, hview⟩ := ih (w := step sys w (.act i e)) hrest (by simpa [step] using hkept)
          (by simp [step, hnone, hflight]) hobserver
        exact ⟨by simpa [step, hnone] using hsent, hview⟩
      · obtain ⟨hsent, hview⟩ := ih (w := step sys w (.act j e)) hrest (by simpa [step, hj] using hparty)
          (by simpa [step, hj] using hflight) hobserver
        exact ⟨by simpa [step, hj] using hsent, hview⟩
    | deliver j k =>
      cases hmessage : (w.inFlight j)[k]? with
      | none =>
        rw [step_deliver_none hmessage]
        exact ih hrest hparty hflight hobserver
      | some m =>
        have hj : j ≠ i := by
          rintro rfl
          rw [hflight] at hmessage
          simp at hmessage
        rw [step_deliver_some hmessage]
        exact ih hrest hparty (by simpa [Ne.symm hj] using hflight) (hreceive _ j m hj hobserver)
    | lose j k =>
      refine ih hrest hparty ?_ hobserver
      by_cases hj : i = j
      · subst hj
        simp [step, hflight]
      · simpa [step, hj] using hflight
    | observe b => exact ih hrest hparty hflight (hobserve _ b hobserver)

/-! ## Simulation -/

section Simulation

variable {σ' ε' α' τ' β' : Type}

theorem filterMap_eraseIdx (f : α → Option α') {l : List α} {k : Nat} {m : α} (h : l[k]? = some m) :
    (f m = none ∧ (l.eraseIdx k).filterMap f = l.filterMap f) ∨
      ∃ j m', f m = some m' ∧ (l.filterMap f)[j]? = some m' ∧
        (l.filterMap f).eraseIdx j = (l.eraseIdx k).filterMap f := by
  induction l generalizing k with
  | nil => simp at h
  | cons x l ih =>
    cases k with
    | zero =>
      obtain rfl : x = m := by simpa using h
      cases hx : f x with
      | none => exact Or.inl ⟨rfl, by simp [hx]⟩
      | some m' => exact Or.inr ⟨0, m', rfl, by simp [hx], by simp [hx]⟩
    | succ k =>
      rcases ih (by simpa using h) with ⟨hnone, hsame⟩ | ⟨j, m', hsome, hj, herase⟩
      · left
        refine ⟨hnone, ?_⟩
        rw [List.eraseIdx_cons_succ, List.filterMap_cons, List.filterMap_cons, hsame]
      · right
        cases hx : f x with
        | none => exact ⟨j, m', hsome, by simpa [hx] using hj, by simpa [hx] using herase⟩
        | some x' => exact ⟨j + 1, m', hsome, by simpa [hx] using hj, by simpa [hx] using herase⟩

/-- What a system does is done by another one, in which a message may get lost that the first one ignores: what the
parties do, which of their messages there are, and what the observers do by themselves. -/
structure Simulation (sys : System ι σ ε α τ β) (sys' : System ι σ' ε' α' τ' β') where
  party : ι → σ → σ'
  event : ι → ε → ε'
  message : ι → α → Option α'
  observation : β → Option β'
  related : τ → τ' → Prop
  act : ∀ i s e, sys'.act i (party i s) (event i e) =
    (party i (sys.act i s e).1, (sys.act i s e).2.filterMap (message i))
  receive : ∀ t t' i m, related t t' → related (sys.receive t i m) t' ∨
    ∃ m', message i m = some m' ∧ related (sys.receive t i m) (sys'.receive t' i m')
  observe : ∀ t t' b, related t t' → related (sys.observe t b) (run sys'.observe t' (observation b).toList)

namespace Simulation

variable {sys : System ι σ ε α τ β} {sys' : System ι σ' ε' α' τ' β'} {S : Simulation sys sys'}
  {w : World ι σ α τ} {w' : World ι σ' α' τ'}

/-- The worlds of the two systems. -/
structure Related (S : Simulation sys sys') (w : World ι σ α τ) (w' : World ι σ' α' τ') : Prop where
  parties : ∀ i, w'.parties i = S.party i (w.parties i)
  sent : ∀ i, w'.sent i = (w.sent i).filterMap (S.message i)
  inFlight : ∀ i, w'.inFlight i = (w.inFlight i).filterMap (S.message i)
  observer : S.related w.observer w'.observer

/-- The actions of the second system that an action of the first one comes to: the same event of the same party,
and the same observation. -/
structure Answers (S : Simulation sys sys') (actions : List (Action ι ε β)) (actions' : List (Action ι ε' β')) :
    Prop where
  events : ∀ i, eventsOf i actions' = (eventsOf i actions).map (S.event i)
  observations : actions'.filterMap Action.observation =
    (actions.filterMap Action.observation).filterMap S.observation

theorem Answers.append {actions later : List (Action ι ε β)} {actions' later' : List (Action ι ε' β')}
    (h : Answers S actions actions') (hlater : Answers S later later') :
    Answers S (actions ++ later) (actions' ++ later') := by
  refine ⟨fun i => ?_, ?_⟩
  · have hevents := h.events i
    have hlaterEvents := hlater.events i
    unfold eventsOf at hevents hlaterEvents ⊢
    rw [List.filterMap_append, List.filterMap_append, List.map_append, hevents, hlaterEvents]
  · rw [List.filterMap_append, List.filterMap_append, List.filterMap_append, h.observations, hlater.observations]

theorem update_filterMap {i : ι} {l : List α} {l' : List α'} {c : ι → List α} {c' : ι → List α'}
    (h : ∀ j, c' j = (c j).filterMap (S.message j)) (hl : l' = l.filterMap (S.message i)) (j : ι) :
    Function.update c' i l' j = (Function.update c i l j).filterMap (S.message j) := by
  by_cases hj : j = i
  · subst hj
    rw [Function.update_self, Function.update_self, hl]
  · rw [Function.update_of_ne hj, Function.update_of_ne hj, h j]

/-- A message that the first observer does not take is lost in the second system, if it is there. -/
theorem Related.gone (h : S.Related w w') {i : ι} {k : Nat} {m : α} (hm : (w.inFlight i)[k]? = some m) {t : τ}
    (ht : S.related t w'.observer) :
    ∃ actions', S.Related
        { w with inFlight := Function.update w.inFlight i ((w.inFlight i).eraseIdx k), observer := t }
        (run (step sys') w' actions') ∧ Answers S [] actions' := by
  rcases filterMap_eraseIdx (S.message i) hm with ⟨-, hsame⟩ | ⟨j, m', -, -, herase⟩
  · refine ⟨[], ⟨h.parties, h.sent, fun j => ?_, ht⟩, fun j => rfl, rfl⟩
    have hkept := update_filterMap h.inFlight ((h.inFlight i).trans hsame.symm) j
    rw [Function.update_eq_self] at hkept
    exact hkept
  · refine ⟨[.lose i j], ⟨h.parties, h.sent, fun n => ?_, ht⟩, fun n => rfl, rfl⟩
    refine update_filterMap h.inFlight ?_ n
    rw [h.inFlight i, herase]

theorem Related.step (h : S.Related w w') (a : Action ι ε β) :
    ∃ actions', S.Related (LossyNetwork.step sys w a) (run (LossyNetwork.step sys') w' actions') ∧
      Answers S [a] actions' := by
  cases a with
  | act i e =>
    have hact := S.act i (w.parties i) e
    rw [← h.parties i] at hact
    refine ⟨[.act i (S.event i e)], ⟨fun j => ?_, fun j => ?_, fun j => ?_, h.observer⟩, fun j => ?_, rfl⟩
    · show Function.update w'.parties i (sys'.act i (w'.parties i) (S.event i e)).1 j =
        S.party j (Function.update w.parties i (sys.act i (w.parties i) e).1 j)
      rw [hact]
      by_cases hj : j = i
      · subst hj
        rw [Function.update_self, Function.update_self]
      · rw [Function.update_of_ne hj, Function.update_of_ne hj, h.parties j]
    · refine update_filterMap h.sent ?_ j
      rw [List.filterMap_append, ← h.sent i]
      exact congrArg (w'.sent i ++ ·) (congrArg Prod.snd hact)
    · refine update_filterMap h.inFlight ?_ j
      rw [List.filterMap_append, ← h.inFlight i]
      exact congrArg (w'.inFlight i ++ ·) (congrArg Prod.snd hact)
    · by_cases hj : i = j
      · subst hj
        simp [eventsOf, Action.eventOf]
      · simp [eventsOf, Action.eventOf, hj]
  | deliver i k =>
    cases hmessage : (w.inFlight i)[k]? with
    | none =>
      rw [step_deliver_none hmessage]
      exact ⟨[], h, fun j => rfl, rfl⟩
    | some m =>
      rw [step_deliver_some hmessage]
      rcases S.receive w.observer w'.observer i m h.observer with hignored | ⟨m', hm, htaken⟩
      · obtain ⟨actions', hrelated, hanswers⟩ := h.gone hmessage hignored
        exact ⟨actions', hrelated, hanswers.events, hanswers.observations⟩
      · rcases filterMap_eraseIdx (S.message i) hmessage with ⟨hnone, -⟩ | ⟨j, x, hx, hj, herase⟩
        · cases hnone.symm.trans hm
        · obtain rfl := Option.some.inj (hx.symm.trans hm)
          rw [← h.inFlight i] at hj herase
          refine ⟨[.deliver i j], ?_, fun n => rfl, rfl⟩
          show S.Related _ (LossyNetwork.step sys' w' (.deliver i j))
          rw [step_deliver_some hj]
          exact ⟨h.parties, h.sent, fun n => update_filterMap h.inFlight herase n, htaken⟩
  | lose i k =>
    cases hmessage : (w.inFlight i)[k]? with
    | none =>
      refine ⟨[], ⟨h.parties, h.sent, fun j => ?_, h.observer⟩, fun j => rfl, rfl⟩
      show _ = (Function.update w.inFlight i ((w.inFlight i).eraseIdx k) j).filterMap (S.message j)
      rw [List.eraseIdx_of_length_le (List.getElem?_eq_none_iff.mp hmessage), Function.update_eq_self]
      exact h.inFlight j
    | some m =>
      obtain ⟨actions', hrelated, hanswers⟩ := h.gone hmessage h.observer
      exact ⟨actions', hrelated, hanswers.events, hanswers.observations⟩
  | observe b =>
    have hobserver := S.observe w.observer w'.observer b h.observer
    cases hb : S.observation b with
    | none =>
      rw [hb] at hobserver
      refine ⟨[], ⟨h.parties, h.sent, h.inFlight, hobserver⟩, fun j => rfl, ?_⟩
      simp [Action.observation, hb]
    | some b' =>
      rw [hb] at hobserver
      refine ⟨[.observe b'], ⟨h.parties, h.sent, h.inFlight, hobserver⟩, fun j => rfl, ?_⟩
      simp [Action.observation, hb]

/-- Each run of the first system is a run of the second one, as far as that one sees it. -/
theorem run (S : Simulation sys sys') (parties : ι → σ) {observer : τ} {observer' : τ'}
    (hobserver : S.related observer observer') (actions : List (Action ι ε β)) :
    ∃ actions', S.Related (History.run (LossyNetwork.step sys) (.initial parties observer) actions)
        (History.run (LossyNetwork.step sys') (.initial (fun i => S.party i (parties i)) observer') actions') ∧
      Answers S actions actions' := by
  induction actions using List.reverseRecOn with
  | nil => exact ⟨[], ⟨fun i => rfl, fun i => rfl, fun i => rfl, hobserver⟩, fun i => rfl, rfl⟩
  | append_singleton past a ih =>
    obtain ⟨past', hrelated, hanswers⟩ := ih
    obtain ⟨last', hlast, hanswer⟩ := hrelated.step a
    refine ⟨past' ++ last', ?_, hanswers.append hanswer⟩
    rw [run_concat, run_append]
    exact hlast

end Simulation

end Simulation

end LossyNetwork
