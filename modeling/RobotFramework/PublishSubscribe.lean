import Mathlib.Data.List.Perm.Subperm
import Mathlib.Logic.Function.Basic
import RobotFramework.History

/-!
# Nodes that publish and subscribe

Nodes publish messages on topics, and a message is in flight to each subscriber of its topic until it arrives or
is lost. Messages are delayed and overtake each other; none is made up, and none reaches a subscriber twice. What
every node keeps of itself and of the messages holds after every interleaving (`Rule.holds_run`); topics that
are published in pairs stay in pairs (`Paired.run`), and a topic of answers has no more messages than its node
has received (`Answers.run`).
-/

namespace PublishSubscribe

open History

variable {ν τ α : Type} {σ ε ρ : ν → Type} [DecidableEq ν] [DecidableEq τ]

/-- What the nodes do. The events at a node, and what it decides for a message, come from outside. -/
structure System (σ ε ρ : ν → Type) (τ α : Type) where
  subscribes : ν → τ → Bool
  /-- A step of a node by itself, and what it publishes on which topics. -/
  act : (i : ν) → σ i → ε i → σ i × List (τ × α)
  /-- A message reaches a node. -/
  receive : (i : ν) → σ i → τ → α → ρ i → σ i × List (τ × α)

/-- The nodes, the messages of each topic, and those that are on their way to a node and that have reached it. -/
structure World (σ : ν → Type) (τ α : Type) where
  nodes : (i : ν) → σ i
  published : τ → List α
  inFlight : ν → τ → List α
  received : ν → τ → List α

/-- What can happen. -/
inductive Action (ε ρ : ν → Type) (τ : Type) where
  | act (i : ν) (e : ε i)
  | deliver (i : ν) (t : τ) (k : Nat) (r : ρ i)
  | lose (i : ν) (t : τ) (k : Nat)

def onTopic (t : τ) (messages : List (τ × α)) : List α :=
  messages.filterMap fun m => if m.1 = t then some m.2 else none

theorem mem_onTopic {t : τ} {messages : List (τ × α)} {m : α} : m ∈ onTopic t messages ↔ (t, m) ∈ messages := by
  unfold onTopic
  rw [List.mem_filterMap]
  constructor
  · rintro ⟨⟨u, x⟩, hmem, hm⟩
    dsimp only at hm
    split_ifs at hm with hu
    rw [← hu, ← Option.some.inj hm]
    exact hmem
  · intro h
    exact ⟨(t, m), h, if_pos rfl⟩

/-- A node takes a new state, and its messages go out. -/
def World.publish (sys : System σ ε ρ τ α) (w : World σ τ α) (i : ν) (result : σ i × List (τ × α)) :
    World σ τ α :=
  { w with
    nodes := Function.update w.nodes i result.1
    published := fun t => w.published t ++ onTopic t result.2
    inFlight := fun j t =>
      if sys.subscribes j t then w.inFlight j t ++ onTopic t result.2 else w.inFlight j t }

/-- A message is not on its way any more. -/
def World.remove (w : World σ τ α) (i : ν) (t : τ) (k : Nat) : World σ τ α :=
  { w with inFlight := fun j u => if j = i ∧ u = t then (w.inFlight j u).eraseIdx k else w.inFlight j u }

/-- A message has reached a node. -/
def World.reach (w : World σ τ α) (i : ν) (t : τ) (m : α) : World σ τ α :=
  { w with received := fun j u => if j = i ∧ u = t then w.received j u ++ [m] else w.received j u }

/-- The world after an action. A message that is not there is neither delivered nor lost. -/
def step (sys : System σ ε ρ τ α) (w : World σ τ α) : Action ε ρ τ → World σ τ α
  | .act i e => w.publish sys i (sys.act i (w.nodes i) e)
  | .deliver i t k r =>
    match (w.inFlight i t)[k]? with
    | some m => ((w.remove i t k).reach i t m).publish sys i (sys.receive i (w.nodes i) t m r)
    | none => w
  | .lose i t k => w.remove i t k

def World.initial (nodes : (i : ν) → σ i) : World σ τ α where
  nodes := nodes
  published _ := []
  inFlight _ _ := []
  received _ _ := []

variable {sys : System σ ε ρ τ α} {w : World σ τ α}

theorem step_cases (sys : System σ ε ρ τ α) (w : World σ τ α) (a : Action ε ρ τ) :
    (∃ i e, a = .act i e ∧ step sys w a = w.publish sys i (sys.act i (w.nodes i) e)) ∨
      (∃ i t k r m, a = .deliver i t k r ∧ (w.inFlight i t)[k]? = some m ∧
        step sys w a = ((w.remove i t k).reach i t m).publish sys i (sys.receive i (w.nodes i) t m r)) ∨
      step sys w a = w ∨ ∃ i t k, step sys w a = w.remove i t k := by
  cases a with
  | act i e => exact Or.inl ⟨i, e, rfl, rfl⟩
  | deliver i t k r =>
    right
    unfold step
    dsimp only
    cases hmessage : (w.inFlight i t)[k]? with
    | none => exact Or.inr (Or.inl rfl)
    | some m => exact Or.inl ⟨i, t, k, r, m, rfl, hmessage, rfl⟩
  | lose i t k => exact Or.inr (Or.inr (Or.inr ⟨i, t, k, rfl⟩))

/-! ## Channels -/

/-- What is on its way to a node and what has reached it was published, each message as often as that. -/
def Genuine (w : World σ τ α) : Prop :=
  ∀ i t, (w.received i t ++ w.inFlight i t).Subperm (w.published t)

theorem Genuine.publish (h : Genuine w) (i : ν) (result : σ i × List (τ × α)) :
    Genuine (w.publish sys i result) := by
  intro j t
  show (w.received j t ++ if _ then _ else _).Subperm (w.published t ++ onTopic t result.2)
  split_ifs
  · rw [← List.append_assoc]
    exact (h j t).append (List.Subperm.refl _)
  · exact (h j t).trans (List.sublist_append_left _ _).subperm

theorem Genuine.remove (h : Genuine w) (i : ν) (t : τ) (k : Nat) : Genuine (w.remove i t k) := by
  intro j u
  show (w.received j u ++ if _ then _ else _).Subperm (w.published u)
  split_ifs
  · exact ((List.eraseIdx_sublist _ k).append_left _).subperm.trans (h j u)
  · exact h j u

theorem Genuine.deliver (h : Genuine w) {i : ν} {t : τ} {k : Nat} {m : α}
    (hm : (w.inFlight i t)[k]? = some m) : Genuine ((w.remove i t k).reach i t m) := by
  intro j u
  show ((if _ then _ else _) ++ if _ then _ else _ : List α).Subperm (w.published u)
  split_ifs with hj
  · obtain ⟨rfl, rfl⟩ := hj
    obtain ⟨hk, rfl⟩ := List.getElem?_eq_some_iff.mp hm
    rw [List.append_assoc, List.singleton_append]
    exact ((List.getElem_cons_eraseIdx_perm hk).append_left _).subperm.trans (h j u)
  · exact h j u

theorem Genuine.step (h : Genuine w) (a : Action ε ρ τ) : Genuine (step sys w a) := by
  rcases step_cases sys w a with ⟨i, e, -, hstep⟩ | ⟨i, t, k, r, m, -, hm, hstep⟩ | hstep | ⟨i, t, k, hstep⟩
  · rw [hstep]
    exact h.publish i _
  · rw [hstep]
    exact (h.deliver hm).publish i _
  · rw [hstep]
    exact h
  · rw [hstep]
    exact h.remove i t k

/-- Whatever happens, a node receives only what was published, and nothing of it twice. -/
theorem genuine_run (sys : System σ ε ρ τ α) (nodes : (i : ν) → σ i) (actions : List (Action ε ρ τ)) :
    Genuine (run (step sys) (.initial nodes) actions) := by
  refine run_invariant (I := fun _ w => Genuine w) ?_ (fun _ _ a h => h.step a) actions
  exact fun i t => List.Subperm.refl _

/-! ## Invariants -/

/-- A property of each node and of the messages on each topic that every allowed step keeps. -/
structure Rule (sys : System σ ε ρ τ α) (event : ∀ i, ε i → Prop) (answer : ∀ i, ρ i → Prop)
    (I : ∀ i, σ i → Prop) (P : τ → α → Prop) : Prop where
  act : ∀ i s e, event i e → I i s →
    I i (sys.act i s e).1 ∧ ∀ t m, (t, m) ∈ (sys.act i s e).2 → P t m
  receive : ∀ i s t m r, answer i r → I i s → P t m →
    I i (sys.receive i s t m r).1 ∧ ∀ u x, (u, x) ∈ (sys.receive i s t m r).2 → P u x

/-- What comes from outside in an action is allowed. -/
def Action.Allowed (event : ∀ i, ε i → Prop) (answer : ∀ i, ρ i → Prop) : Action ε ρ τ → Prop
  | .act i e => event i e
  | .deliver i _ _ r => answer i r
  | .lose _ _ _ => True

/-- The invariant of the world that a rule gives. -/
structure Holds (I : ∀ i, σ i → Prop) (P : τ → α → Prop) (w : World σ τ α) : Prop where
  nodes : ∀ i, I i (w.nodes i)
  published : ∀ t, ∀ m ∈ w.published t, P t m
  genuine : Genuine w

variable {event : ∀ i, ε i → Prop} {answer : ∀ i, ρ i → Prop} {I : ∀ i, σ i → Prop} {P : τ → α → Prop}

theorem Holds.publish (h : Holds I P w) {i : ν} {result : σ i × List (τ × α)}
    (hresult : I i result.1 ∧ ∀ t m, (t, m) ∈ result.2 → P t m) : Holds I P (w.publish sys i result) := by
  refine ⟨fun j => ?_, fun t m hm => ?_, h.genuine.publish i result⟩
  · by_cases hj : j = i
    · subst hj
      simpa [World.publish] using hresult.1
    · simpa [World.publish, hj] using h.nodes j
  · rcases List.mem_append.mp hm with hm | hm
    · exact h.published t m hm
    · exact hresult.2 t m (mem_onTopic.mp hm)

theorem Rule.holds_step (rule : Rule sys event answer I P) (h : Holds I P w) {a : Action ε ρ τ}
    (ha : a.Allowed event answer) : Holds I P (step sys w a) := by
  rcases step_cases sys w a with ⟨i, e, rfl, hstep⟩ | ⟨i, t, k, r, m, rfl, hm, hstep⟩ | hstep | ⟨i, t, k, hstep⟩
  · rw [hstep]
    exact h.publish (rule.act i _ e ha (h.nodes i))
  · have hpublished : m ∈ w.published t :=
      (h.genuine i t).subset (List.mem_append_right _ (List.mem_of_getElem? hm))
    have hreached : Holds I P ((w.remove i t k).reach i t m) :=
      ⟨h.nodes, h.published, h.genuine.deliver hm⟩
    rw [hstep]
    exact hreached.publish (rule.receive i _ t m r ha (h.nodes i) (h.published t m hpublished))
  · rw [hstep]
    exact h
  · rw [hstep]
    exact ⟨h.nodes, h.published, h.genuine.remove i t k⟩

theorem Rule.holds_run (rule : Rule sys event answer I P) (nodes : (i : ν) → σ i) (hnodes : ∀ i, I i (nodes i))
    {actions : List (Action ε ρ τ)} (hactions : ∀ a ∈ actions, a.Allowed event answer) :
    Holds I P (run (step sys) (.initial nodes) actions) := by
  induction actions using List.reverseRecOn with
  | nil => exact ⟨hnodes, fun t m hm => absurd hm List.not_mem_nil, fun i t => List.Subperm.refl _⟩
  | append_singleton past a ih =>
    rw [run_concat]
    apply rule.holds_step
    · exact ih fun b hb => hactions b (List.mem_append_left _ hb)
    · exact hactions a (List.mem_append_right _ (List.mem_singleton_self a))

/-! ## Pairs -/

/-- The messages of two topics go out in pairs. -/
structure Paired (sys : System σ ε ρ τ α) (t u : τ) (R : α → α → Prop) : Prop where
  act : ∀ i s e, List.Forall₂ R (onTopic t (sys.act i s e).2) (onTopic u (sys.act i s e).2)
  receive : ∀ i s v m r,
    List.Forall₂ R (onTopic t (sys.receive i s v m r).2) (onTopic u (sys.receive i s v m r).2)

theorem Paired.run {t u : τ} {R : α → α → Prop} (h : Paired sys t u R) (nodes : (i : ν) → σ i)
    (actions : List (Action ε ρ τ)) :
    List.Forall₂ R ((History.run (step sys) (.initial nodes) actions).published t)
      ((History.run (step sys) (.initial nodes) actions).published u) := by
  refine run_invariant (I := fun _ (w : World σ τ α) => List.Forall₂ R (w.published t) (w.published u))
    .nil ?_ actions
  intro past w a hw
  rcases step_cases sys w a with ⟨i, e, -, hstep⟩ | ⟨i, v, k, r, m, -, -, hstep⟩ | hstep | ⟨i, v, k, hstep⟩
  · rw [hstep]
    exact List.rel_append hw (h.act i _ e)
  · rw [hstep]
    exact List.rel_append hw (h.receive i _ v m r)
  · rw [hstep]
    exact hw
  · rw [hstep]
    exact hw

/-! ## Answers -/

/-- A topic has only messages that a node publishes when it receives one of another topic, at most one each. -/
structure Answers (sys : System σ ε ρ τ α) (i : ν) (t u : τ) : Prop where
  act : ∀ j s e, onTopic u (sys.act j s e).2 = []
  other : ∀ j s v m r, ¬ (i = j ∧ t = v) → onTopic u (sys.receive j s v m r).2 = []
  once : ∀ j s v m r, (onTopic u (sys.receive j s v m r).2).length ≤ 1

/-- There are no more answers than the node has received, and it receives no more than was published. -/
theorem Answers.run {i : ν} {t u : τ} (h : Answers sys i t u) (nodes : (i : ν) → σ i)
    (actions : List (Action ε ρ τ)) :
    ((History.run (step sys) (.initial nodes) actions).published u).length ≤
      ((History.run (step sys) (.initial nodes) actions).published t).length := by
  have hreceived : ((History.run (step sys) (.initial nodes) actions).published u).length ≤
      ((History.run (step sys) (.initial nodes) actions).received i t).length := by
    refine run_invariant
      (I := fun _ (w : World σ τ α) => (w.published u).length ≤ (w.received i t).length) le_rfl ?_ actions
    intro past w a hw
    rcases step_cases sys w a with ⟨j, e, -, hstep⟩ | ⟨j, v, k, r, m, -, -, hstep⟩ | hstep | ⟨j, v, k, hstep⟩
    · rw [hstep]
      show (w.published u ++ onTopic u _).length ≤ (w.received i t).length
      rw [h.act, List.append_nil]
      exact hw
    · rw [hstep]
      show (w.published u ++ onTopic u _).length ≤
        (if i = j ∧ t = v then w.received i t ++ [m] else w.received i t).length
      split_ifs with hj
      · have honce := h.once j (w.nodes j) v m r
        rw [List.length_append, List.length_append, List.length_singleton]
        omega
      · rw [h.other j _ v m r hj, List.append_nil]
        exact hw
    · rw [hstep]
      exact hw
    · rw [hstep]
      exact hw
  have hgenuine := (genuine_run sys nodes actions i t).length_le
  rw [List.length_append] at hgenuine
  omega

end PublishSubscribe
