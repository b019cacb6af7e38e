import RobotFramework.BaseNode.Spinning

/-!
# What a base node publishes about itself

The timer callbacks of the main program are those of `Timing`, but `init`, `start` and `reset` come between
them, a timer fires only while it is active, and the rates of the user loops are those that `start` has read.
Whatever is called in which order, the shared diagnostic describes the callbacks that have run
(`reports_run`), so the timing diagnostic of every 1 Hz callback does, too (`Program.Reports.publishes`).
-/

namespace BaseNode

open History

/-! ## The program and its callbacks -/

/-- The timer of a loop fires. -/
def Program.Fires (q : Program) (l : Loop) : Prop := q.stage = .spinning ∧ q.node.timers l = some .active

instance (q : Program) (l : Loop) : Decidable (q.Fires l) := inferInstanceAs (Decidable (_ ∧ _))

/-- The callback that an event runs. -/
def Program.callbackOf (q : Program) : MainEvent → Option Callback
  | .fire c => if q.Fires c.loop then some c else none
  | _ => none

/-- The program after what has happened. -/
def programRun (p : Parameters) (events : List MainEvent) : Program :=
  run (fun q e => (q.step p e).1) .initial events

def callbacks (p : Parameters) (events : List MainEvent) : List Callback :=
  emitted (fun (q : Program) e => (q.step p e).1) (fun q e => (q.callbackOf e).toList) .initial events

/-- The diagnostics among what is published. -/
def diagnosticsOf (published : List Publication) : List Diagnostic :=
  published.filterMap fun
    | .message (.diagnostic d) => some d
    | _ => none

theorem callbacks_concat (p : Parameters) (events : List MainEvent) (e : MainEvent) :
    callbacks p (events ++ [e]) = callbacks p events ++ ((programRun p events).callbackOf e).toList :=
  emitted_concat _ _ _ events e

/-! ## The diagnostic describes the callbacks -/

variable {rates : UserRates} {past : List Callback} {t : Timing}

theorem Described.congr (h : Described rates past t) {t' : Timing} (hflags : t'.loopOk = t.loopOk)
    (hdiagnostic : t'.timingDiagnostic = t.timingDiagnostic) : Described rates past t' := by
  obtain ⟨⟨hloopOk, hfailed⟩, htype, hdescription⟩ := h
  refine ⟨⟨?_, ?_⟩, ?_, ?_⟩
  · rwa [hflags]
  · rwa [hflags, hdiagnostic]
  · rwa [hdiagnostic]
  · rwa [hflags, hdiagnostic]

theorem Described.of_nil (h : Described rates [] t) (rates' : UserRates) : Described rates' [] t := by
  have hraised (l : Loop) : ¬ t.loopOk l = false := fun hl => by
    have hover := (h.flags.loopOk l).mp hl
    cases hover
  refine ⟨⟨fun l => iff_of_false (hraised l) fun hover => ?_, fun ⟨l, hl⟩ => absurd hl (hraised l)⟩,
    h.diagnosticType, fun ⟨l, hl⟩ => absurd hl (hraised l)⟩
  cases hover

theorem Described.timerCallback (h : Described rates past t) (c : Callback) :
    Described rates (past ++ [c]) (timerCallback rates t c) := by
  unfold BaseNode.timerCallback
  split_ifs
  · exact h.baseRun1Hz.timerLoopTimingRun c _
  · exact h.timerLoopTimingRun c _

/-- The diagnostic describes the callbacks so far, of which there is none before the program spins. -/
structure Program.Reports (past : List Callback) (q : Program) : Prop where
  valid : q.Valid
  described : Described q.node.loopRates past q.timing
  fresh : q.stage ≠ .spinning → past = []

theorem Program.Reports.mainCall {q : Program} (h : q.Reports past) (hstage : q.stage ≠ .spinning)
    (op : Op UserData) (next : MainStage) (hvalid : (q.mainCall op next).Valid) :
    (q.mainCall op next).Reports past := by
  have hnone := h.fresh hstage
  subst hnone
  have hdescribed := h.described.of_nil (op q.node).2.loopRates
  exact ⟨hvalid, hdescribed.congr rfl rfl, fun _ => rfl⟩

theorem Program.Reports.step {q : Program} (h : q.Reports past) (p : Parameters) (e : MainEvent) :
    (q.step p e).1.Reports (past ++ (q.callbackOf e).toList) := by
  have hvalid := (h.valid.step p e).1
  cases e with
  | init hooks =>
    show Program.Reports (past ++ []) _
    rw [List.append_nil]
    by_cases hstage : q.stage = .constructed
    · rw [show q.step p (.init hooks) = (q.mainCall (BaseNode.init p hooks) .initialized, []) from
        if_pos hstage] at hvalid ⊢
      exact h.mainCall (by rw [hstage]; decide) _ _ hvalid
    · rw [show q.step p (.init hooks) = (q, []) from if_neg hstage]
      exact h
  | start =>
    show Program.Reports (past ++ []) _
    rw [List.append_nil]
    by_cases hstage : q.stage = .initialized
    · rw [show q.step p .start = (q.mainCall (BaseNode.start p) .spinning, []) from if_pos hstage] at hvalid ⊢
      exact h.mainCall (by rw [hstage]; decide) _ _ hvalid
    · rw [show q.step p .start = (q, []) from if_neg hstage]
      exact h
  | reset d e =>
    show Program.Reports (past ++ []) _
    rw [List.append_nil]
    by_cases hstage : q.stage = .spinning
    · rw [show q.step p (.reset d e) = (q.userCall (BaseNode.reset d e), []) from if_pos hstage] at hvalid ⊢
      have hspins := h.valid.spins hstage
      obtain ⟨-, value, hvalue⟩ := hspins.reset d e
      have hrates : (BaseNode.reset d e q.node).2.loopRates = q.node.loopRates := by
        rw [reset_eq d e hspins.restartable hspins.timers]
        split_ifs <;> rfl
      have hspinning : (q.userCall (BaseNode.reset d e)).stage = .spinning := by
        unfold Program.userCall
        dsimp only
        rw [hvalue]
        exact hstage
      refine ⟨hvalid, ?_, fun hnot => absurd hspinning hnot⟩
      show Described (BaseNode.reset d e q.node).2.loopRates past _
      rw [hrates]
      exact h.described.congr rfl rfl
    · rw [show q.step p (.reset d e) = (q, []) from if_neg hstage]
      exact h
  | fire c =>
    by_cases hfires : q.Fires c.loop
    · rw [show q.callbackOf (.fire c) = some c from if_pos hfires, Option.toList_some]
      rw [show q.step p (.fire c) = (q.callback c, q.published c.loop) from if_pos hfires] at hvalid ⊢
      exact ⟨hvalid, (h.described.timerCallback c).congr rfl rfl, fun hnot => absurd hfires.1 hnot⟩
    · rw [show q.callbackOf (.fire c) = none from if_neg hfires, Option.toList_none, List.append_nil,
        show q.step p (.fire c) = (q, []) from if_neg hfires]
      exact h

theorem reports_run (p : Parameters) (events : List MainEvent) :
    (programRun p events).Reports (callbacks p events) := by
  induction events using List.reverseRecOn with
  | nil =>
    refine ⟨valid_initial, ?_, fun _ => rfl⟩
    exact (described_run Program.initial.node.loopRates []).congr rfl rfl
  | append_singleton events e ih =>
    rw [callbacks_concat]
    unfold programRun at ih ⊢
    rw [run_concat]
    exact ih.step p e

/-! ## What is published -/

theorem diagnosticsOf_published (q : Program) (l : Loop) :
    diagnosticsOf (q.published l) =
      if l = .loop1Hz then q.node.user.diagnostics ++ [publishedTimingDiagnostic q.timing] else [] := by
  cases l with
  | loop1Hz =>
    have huser (ds : List Diagnostic) :
        (ds.map fun d => Publication.message (.diagnostic d)).filterMap (fun
          | .message (.diagnostic d) => some d
          | _ => none) = ds := by
      induction ds with
      | nil => rfl
      | cons d ds ih => simp
    rw [if_pos rfl]
    unfold diagnosticsOf Program.published baseRun1Hz
    simp only [List.map_append, List.map_map, List.filterMap_append]
    exact congrArg₂ _ (huser _) rfl
  | loop100Hz | loop10Hz | loop01Hz | loop001Hz | loop1 | loop2 | loop3 => rfl

/-- The event is the 1 Hz callback of a program that runs. -/
structure Program.Publishes (q : Program) (c : Callback) : Prop where
  fires : q.Fires c.loop
  loop : c.loop = .loop1Hz

theorem diagnosticsOf_step (p : Parameters) (q : Program) (e : MainEvent) :
    (∃ c, e = .fire c ∧ q.Publishes c ∧
        diagnosticsOf (q.step p e).2 = q.node.user.diagnostics ++ [publishedTimingDiagnostic q.timing]) ∨
      (∀ c, e = .fire c → ¬ q.Publishes c) ∧ diagnosticsOf (q.step p e).2 = [] := by
  cases e with
  | fire c =>
    by_cases hfires : q.Fires c.loop
    · rw [show q.step p (.fire c) = (q.callback c, q.published c.loop) from if_pos hfires]
      by_cases hloop : c.loop = .loop1Hz
      · refine Or.inl ⟨c, rfl, ⟨hfires, hloop⟩, ?_⟩
        rw [diagnosticsOf_published, if_pos hloop]
      · refine Or.inr ⟨?_, ?_⟩
        · rintro _ ⟨⟩ hpublishes
          exact hloop hpublishes.loop
        · rw [diagnosticsOf_published, if_neg hloop]
    · rw [show q.step p (.fire c) = (q, []) from if_neg hfires]
      refine Or.inr ⟨?_, rfl⟩
      rintro _ ⟨⟩ hpublishes
      exact hfires hpublishes.fires
  | init hooks | start | reset d e =>
    refine Or.inr ⟨?_, ?_⟩
    · rintro c ⟨⟩
    · unfold Program.step
      dsimp only
      split_ifs <;> rfl

end BaseNode
