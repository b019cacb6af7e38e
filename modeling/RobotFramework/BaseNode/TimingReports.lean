import RobotFramework.BaseNode.Timing

/-!
# What the timing diagnostic says

While some flag is lowered, the shared diagnostic is the one that the last overrun of any loop has written
(`Described`). So each publication reports that overrun, and names its loop also when that loop has been on
time since and it is another one that is late.
-/

namespace BaseNode

open History

variable {rates : UserRates} {past : List Callback} {t : Timing}

/-! ## The last overrun -/

/-- The last iteration of any loop that overran. -/
def lastOverrun (rates : UserRates) (past : List Callback) : Option Callback :=
  lastSome (fun c => if overran rates c then some c else none) past

def overrunDescription (rates : UserRates) (c : Callback) : String :=
  c.loop.name ++ " Slow: Rate: " ++ toStringDouble (slowDownRate (c.loop.rate rates) c.elapsedSeconds) ++
    "X " ++ toStringDouble c.elapsedSeconds ++ " (sec) Expected: " ++
    toStringDouble (1 / c.loop.rate rates)

theorem lastOverrun_concat (rates : UserRates) (past : List Callback) (c : Callback) :
    lastOverrun rates (past ++ [c]) = if overran rates c then some c else lastOverrun rates past := by
  unfold lastOverrun
  rw [lastSome_concat]
  split_ifs <;> rfl

/-- While a flag is lowered, the diagnostic describes the last overrun. -/
structure Described (rates : UserRates) (past : List Callback) (t : Timing) : Prop where
  flags : Flags rates past t
  diagnosticType : t.timingDiagnostic.diagnosticType = .timing
  description : (∃ l, t.loopOk l = false) →
    ∃ c, lastOverrun rates past = some c ∧ t.timingDiagnostic.description = overrunDescription rates c

theorem published_diagnosticType (t : Timing) :
    (publishedTimingDiagnostic t).diagnosticType = t.timingDiagnostic.diagnosticType := by
  unfold publishedTimingDiagnostic
  split_ifs <;> rfl

theorem Described.baseRun1Hz (h : Described rates past t) :
    Described rates past (baseRun1Hz t).1 := by
  refine ⟨h.flags.baseRun1Hz, (published_diagnosticType t).trans h.diagnosticType, ?_⟩
  rintro ⟨l, hl⟩
  change t.loopOk l = false at hl
  show ∃ c, _ ∧ (publishedTimingDiagnostic t).description = _
  rw [published_of_lowered hl]
  exact h.description ⟨l, hl⟩

theorem Described.timerLoopTimingRun (h : Described rates past t) (c : Callback) (user : UserData) :
    Described rates (past ++ [c])
      (timerLoopTimingRun c.loop (c.loop.rate rates) c.elapsedSeconds { t with user := user }) := by
  have hflags := h.flags.timerLoopTimingRun c user
  have hover : overran rates c = decide (slowDownRate (c.loop.rate rates) c.elapsedSeconds > 1) := rfl
  refine ⟨hflags, ?_, fun hex => ?_⟩
  · unfold BaseNode.timerLoopTimingRun
    split_ifs
    · exact h.diagnosticType
    · exact h.diagnosticType
  · rw [lastOverrun_concat, hover]
    unfold BaseNode.timerLoopTimingRun at hex ⊢
    by_cases hslow : slowDownRate (c.loop.rate rates) c.elapsedSeconds > 1
    · rw [if_pos hslow, if_pos (decide_eq_true hslow)]
      exact ⟨c, rfl, rfl⟩
    · rw [if_neg hslow] at hex ⊢
      rw [if_neg (by simpa using hslow)]
      obtain ⟨l, hl⟩ := hex
      exact h.description ⟨l, lowered_of_update hl⟩

theorem described_run (rates : UserRates) (past : List Callback) :
    Described rates past (run (timerCallback rates) Timing.initial past) := by
  apply run_invariant
  · refine ⟨flags_run rates [], rfl, ?_⟩
    rintro ⟨l, hl⟩
    exact absurd hl (by show ¬ true = false; decide)
  · intro past t c h
    unfold timerCallback
    split_ifs
    · exact h.baseRun1Hz.timerLoopTimingRun c _
    · exact h.timerLoopTimingRun c _

/-! ## Every publication -/

/-- The last iteration of every loop that has run was within its period. -/
def OnTime (rates : UserRates) (past : List Callback) : Prop :=
  ∀ l late, lastOverran rates past l = some late → late = false

theorem not_onTime_iff : ¬ OnTime rates past ↔ ∃ l, lastOverran rates past l = some true := by
  unfold OnTime
  push Not
  constructor
  · rintro ⟨l, late, hlate, htrue⟩
    obtain rfl := eq_true_of_ne_false htrue
    exact ⟨l, hlate⟩
  · rintro ⟨l, hl⟩
    exact ⟨l, true, hl, by simp⟩

/-- The timing diagnostic of a publication. -/
structure TimingReport (rates : UserRates) (past : List Callback) (d : Diagnostic) : Prop where
  diagnosticType : d.diagnosticType = .timing
  noError : d.level = .info ∧ d.diagnosticMessage = .noError ↔ OnTime rates past
  failed : ¬ OnTime rates past → d.level = .warn ∧ d.diagnosticMessage = .diagnosticFailed ∧
    ∃ c, lastOverrun rates past = some c ∧ d.description = overrunDescription rates c

theorem Described.report (h : Described rates past t) :
    TimingReport rates past (publishedTimingDiagnostic t) := by
  have htype := (published_diagnosticType t).trans h.diagnosticType
  by_cases hall : Loop.all.all t.loopOk = true
  · have honTime : OnTime rates past := by
      by_contra hlate
      obtain ⟨l, hl⟩ := not_onTime_iff.mp hlate
      exact absurd ((all_loopOk.mp hall l).symm.trans ((h.flags.loopOk l).mpr hl)) (by decide)
    refine ⟨htype, iff_of_true ?_ honTime, fun hlate => absurd honTime hlate⟩
    unfold publishedTimingDiagnostic
    rw [if_pos hall]
    exact ⟨rfl, rfl⟩
  · obtain ⟨l, hl⟩ := lowered_of_not_all hall
    obtain ⟨hlevel, hmessage⟩ := h.flags.failed ⟨l, hl⟩
    have hlate : ¬ OnTime rates past := not_onTime_iff.mpr ⟨l, (h.flags.loopOk l).mp hl⟩
    rw [published_of_lowered hl] at htype ⊢
    refine ⟨htype, iff_of_false ?_ hlate, fun _ => ⟨hlevel, hmessage, h.description ⟨l, hl⟩⟩⟩
    rintro ⟨hinfo, -⟩
    exact absurd (hlevel.symm.trans hinfo) (by decide)

/-- **One timing diagnostic.** After every interleaving of callbacks, `baseRun1Hz` publishes one timing
diagnostic after those of the user: no error if every loop was on time, and else a failed one with the
description of the last overrun. -/
theorem one_timing_diagnostic (rates : UserRates) (past : List Callback) :
    let t := run (timerCallback rates) Timing.initial past
    ∃ d, (baseRun1Hz t).2 = t.user.diagnostics.map .diagnostic ++ [.diagnostic d,
        .readyToArm t.user.systemID t.user.subsystemID t.user.processID t.user.readyToArm] ∧
      TimingReport rates past d :=
  ⟨_, rfl, (described_run rates past).report⟩

/-! ## Which loop is blamed -/

/-- The description starts as one of an overrun of the loop. -/
def Names (description : String) (l : Loop) : Prop :=
  ∃ rest, description = l.name ++ " Slow: Rate: " ++ rest

theorem names_overrunDescription (rates : UserRates) (c : Callback) :
    Names (overrunDescription rates c) c.loop := by
  refine ⟨toStringDouble (slowDownRate (c.loop.rate rates) c.elapsedSeconds) ++ ("X " ++
    (toStringDouble c.elapsedSeconds ++ (" (sec) Expected: " ++ toStringDouble (1 / c.loop.rate rates)))),
    ?_⟩
  unfold overrunDescription
  simp only [String.append_assoc]

theorem Names.unique {description : String} {l k : Loop} (hl : Names description l)
    (hk : Names description k) : l = k := by
  have hstarts {j : Loop} (hj : Names description j) :
      (j.name ++ " Slow: Rate: ").toList <+: description.toList := by
    obtain ⟨rest, rfl⟩ := hj
    exact ⟨rest.toList, String.toList_append.symm⟩
  have hcases := List.prefix_or_prefix_of_prefix (hstarts hl) (hstarts hk)
  revert hcases
  clear hl hk
  cases l <;> cases k <;> decide

/-- A failed timing diagnostic that the 1 Hz callback publishes names a loop whose last iteration
overran. -/
def NamesLateLoop (rates : UserRates) (past : List Callback) (c : Callback) : Prop :=
  let t := run (timerCallback rates) Timing.initial past
  c.loop = .loop1Hz → ∀ d ready,
    (baseRun1Hz t).2 = t.user.diagnostics.map .diagnostic ++ [.diagnostic d, ready] →
    d.diagnosticMessage = .diagnosticFailed →
    ∃ l, Names d.description l ∧ lastOverran rates past l = some true

/-- When the 1 Hz callback comes and some loop's last iteration overran, so did the last one of the loop
that overran last. -/
def LastOverrunPersists (rates : UserRates) (past : List Callback) (c : Callback) : Prop :=
  c.loop = .loop1Hz → (∃ l, lastOverran rates past l = some true) →
    ∀ o, lastOverrun rates past = some o → lastOverran rates past o.loop = some true

theorem namesLateLoop_iff (rates : UserRates) (past : List Callback) (c : Callback) :
    NamesLateLoop rates past c ↔ LastOverrunPersists rates past c := by
  have hreport := (described_run rates past).report
  constructor
  · intro hnames hc hlate o ho
    obtain ⟨-, hfailed, last, hlast, hdescription⟩ := hreport.failed (not_onTime_iff.mpr hlate)
    obtain rfl : last = o := Option.some.inj (hlast.symm.trans ho)
    obtain ⟨l, hl, hover⟩ := hnames hc _ _ rfl hfailed
    rw [hdescription] at hl
    rw [← hl.unique (names_overrunDescription rates last)]
    exact hover
  · intro hpersists hc d ready hmessages hfailed
    rw [published_eq hmessages] at hfailed ⊢
    have hlate : ¬ OnTime rates past := fun honTime => by
      have hok := (hreport.noError.mpr honTime).2
      exact absurd (hok.symm.trans hfailed) (by decide)
    obtain ⟨-, -, last, hlast, hdescription⟩ := hreport.failed hlate
    rw [hdescription]
    exact ⟨last.loop, names_overrunDescription rates last,
      hpersists hc (not_onTime_iff.mp hlate) last hlast⟩

/-- **Blame.** In a run every failed timing diagnostic names a loop that is late if and only if, at each
publication with a late loop, the loop that overran last is late. -/
theorem names_late_loop_iff (rates : UserRates) (callbacks : List Callback) :
    Every (NamesLateLoop rates) callbacks ↔ Every (LastOverrunPersists rates) callbacks :=
  every_congr (fun past c _ => namesLateLoop_iff rates past c) callbacks

/-- The 10 Hz loop is late, then the 100 Hz loop; the latter is on time again when the 1 Hz callback
comes. -/
def recoveredLast : List Callback :=
  [⟨.loop10Hz, 1 / 5, id⟩, ⟨.loop100Hz, 1 / 20, id⟩, ⟨.loop100Hz, 1 / 1000, id⟩, ⟨.loop1Hz, 0, id⟩]

/-- The 100 Hz loop is blamed. -/
theorem recoveredLast_blamed : ¬ Every (NamesLateLoop ⟨-1, -1, -1⟩) recoveredLast := by
  intro h
  have hnames := h [⟨.loop10Hz, 1 / 5, id⟩, ⟨.loop100Hz, 1 / 20, id⟩, ⟨.loop100Hz, 1 / 1000, id⟩]
    ⟨.loop1Hz, 0, id⟩ [] rfl
  have hlast : lastOverrun ⟨-1, -1, -1⟩ ([⟨.loop10Hz, 1 / 5, id⟩] ++ [⟨.loop100Hz, 1 / 20, id⟩] ++
      [⟨.loop100Hz, 1 / 1000, id⟩]) = some ⟨.loop100Hz, 1 / 20, id⟩ := by
    rw [lastOverrun_concat, if_neg (by decide +kernel), lastOverrun_concat, if_pos (by decide +kernel)]
  have hlate := (namesLateLoop_iff _ _ _).mp hnames rfl ⟨.loop10Hz, by decide +kernel⟩ _ hlast
  revert hlate
  decide +kernel

end BaseNode
