import Mathlib.Data.List.Sort
import RobotFramework.SystemMonitor.KeyEvents

/-!
# The selected record

The down key clamps the selected record to one less than the number of records, which is below zero
while there are none, and adds before it clamps, in 16 bits. `Safe` says when neither happens and the
count of the records does not wrap around; with it the selection stays in range, and one row is marked
as soon as there is a row.
-/

namespace SystemMonitor

open History

/-! ## Valid selections -/

/-- The selected record is one of the records, or the first one if there are none. -/
def InRange (w : KeyedWindow) : Prop :=
  0 ≤ w.recordSelected.toInt ∧ w.recordSelected.toInt ≤ max 0 ((w.recordCount.toNat : Int) - 1)

instance (w : KeyedWindow) : Decidable (InRange w) := inferInstanceAs (Decidable (_ ∧ _))

/-- The selection is in range, and exactly one row is marked if there are any. -/
def ValidSelection (sort : SortById) (w : KeyedWindow) : Prop :=
  InRange w ∧ (0 < w.nodes.entries.length → (w.rows sort).countP (·.2) = 1)

instance (sort : SortById) (w : KeyedWindow) : Decidable (ValidSelection sort w) :=
  inferInstanceAs (Decidable (_ ∧ _))

/-- The down key comes when the records are counted, the selection is not the largest 16-bit number, and
no message adds a record that the count or the selection has no number for. -/
def Safe (w : KeyedWindow) : Input → Prop
  | .key key _ => key = keyDown → w.recordCount.toNat ≠ 0 ∧ w.recordSelected.toInt < 32767
  | .event e => e.isNew w.toNodeInfoWindow → w.nodes.entries.length < 65535 ∨
      (w.nodes.entries.length = 65535 ∧ w.recordSelected.toInt = 0)

/-! ## The arrow keys -/

theorem toInt_decrement {w : KeyedWindow} (h : 0 ≤ w.recordSelected.toInt) :
    w.decrementSelectedRecord.recordSelected.toInt = max 0 (w.recordSelected.toInt - 1) := by
  have hlt := w.recordSelected.toInt_lt
  have hsub : (w.recordSelected - 1).toInt = w.recordSelected.toInt - 1 := by
    rw [Int16.toInt_sub]
    exact Int.bmod_eq_of_le (by simp; omega) (by simp; omega)
  show (if w.recordSelected - 1 < 0 then 0 else w.recordSelected - 1).toInt = _
  by_cases hneg : w.recordSelected - 1 < 0
  · rw [if_pos hneg]
    rw [Int16.lt_iff_toInt_lt, hsub, Int16.toInt_zero] at hneg
    rw [Int16.toInt_zero]
    omega
  · rw [if_neg hneg]
    rw [Int16.lt_iff_toInt_lt, hsub, Int16.toInt_zero] at hneg
    rw [hsub]
    omega

theorem toInt_increment {w : KeyedWindow} (h : InRange w) :
    w.incrementSelectedRecord.recordSelected.toInt =
      if w.recordCount.toNat = 0 then -1
      else if w.recordSelected.toInt = 32767 then -32768
      else min (w.recordSelected.toInt + 1) ((w.recordCount.toNat : Int) - 1) := by
  obtain ⟨hlow, hhigh⟩ := h
  have hlt := w.recordSelected.toInt_lt
  have hadd : (w.recordSelected + 1).toInt =
      if w.recordSelected.toInt = 32767 then -32768 else w.recordSelected.toInt + 1 := by
    rw [Int16.toInt_add]
    split_ifs with hmax
    · rw [hmax]
      decide
    · exact Int.bmod_eq_of_le (by simp; omega) (by simp; omega)
  have hlast : ∀ n : Int, -1 ≤ n → n ≤ 32767 → (Int16.ofInt n).toInt = n := by
    intro n hn hn'
    exact Int16.toInt_ofInt_of_le (by omega) (by omega)
  show (if (w.recordSelected + 1).toInt ≥ (w.recordCount.toNat : Int) - 1 then
    Int16.ofInt ((w.recordCount.toNat : Int) - 1) else w.recordSelected + 1).toInt = _
  by_cases hclamp : (w.recordSelected + 1).toInt ≥ (w.recordCount.toNat : Int) - 1
  · rw [if_pos hclamp]
    rw [hadd] at hclamp
    rw [hlast _ (by omega) (by split_ifs at hclamp <;> omega)]
    split_ifs at hclamp ⊢ <;> omega
  · rw [if_neg hclamp, hadd]
    rw [hadd] at hclamp
    split_ifs at hclamp ⊢ <;> omega

/-! ## Marked rows -/

theorem marked_eq (sort : SortById) (w : KeyedWindow) :
    (w.rows sort).countP (·.2) = (List.range w.nodes.entries.length).countP
      fun i => decide (((i % 65536 : Nat) : Int) = w.recordSelected.toInt) := by
  have hcount := congrArg (List.countP id) (marks_rows sort w)
  rw [List.countP_map, List.countP_map] at hcount
  exact hcount

theorem marked_of_le {sort : SortById} {w : KeyedWindow} (hn : w.nodes.entries.length ≤ 65536)
    (hlow : 0 ≤ w.recordSelected.toInt)
    (hhigh : w.recordSelected.toInt < w.nodes.entries.length) :
    (w.rows sort).countP (·.2) = 1 := by
  obtain ⟨s, hs⟩ := Int.eq_ofNat_of_zero_le hlow
  have hmem : s ∈ List.range w.nodes.entries.length := List.mem_range.mpr (by omega)
  rw [marked_eq, ← List.count_eq_one_of_mem List.nodup_range hmem]
  refine List.countP_congr fun i hi => ?_
  have hlt := List.mem_range.mp hi
  rw [Nat.mod_eq_of_lt (by omega), hs]
  simp

/-- Two rows are marked where their numbers differ by the range of the loop's counter. -/
theorem two_marked {sort : SortById} {w : KeyedWindow} (hlow : 0 ≤ w.recordSelected.toInt)
    (hrange : w.recordSelected.toInt < 65536)
    (hhigh : w.recordSelected.toInt + 65536 < w.nodes.entries.length) :
    2 ≤ (w.rows sort).countP (·.2) := by
  obtain ⟨s, hs⟩ := Int.eq_ofNat_of_zero_le hlow
  rw [marked_eq, List.countP_eq_length_filter]
  have hsub : List.Subperm [s, s + 65536] ((List.range w.nodes.entries.length).filter
      fun i => decide (((i % 65536 : Nat) : Int) = w.recordSelected.toInt)) := by
    refine List.subperm_of_subset (by simp) ?_
    intro i hi
    rw [List.mem_filter, List.mem_range, decide_eq_true_eq, hs]
    simp only [List.mem_cons, List.not_mem_nil, or_false] at hi
    omega
  exact hsub.length_le

/-! ## Validity as a range -/

/-- The count of the records is their number, in 16 bits. -/
def Counted (w : NodeInfoWindow) : Prop := w.recordCount = UInt16.ofNat w.nodes.entries.length

theorem counted_step {w : NodeInfoWindow} (h : Counted w) (e : Event) : Counted (step w e) := by
  unfold Counted at h ⊢
  by_cases hnew : e.isNew w
  · obtain ⟨hlength, hcount⟩ := length_step_of_new hnew
    rw [hlength, hcount]
  · obtain ⟨hlength, hcount⟩ := length_step_of_known hnew
    rw [hlength, hcount, h]

theorem counted_toNat {w : NodeInfoWindow} (h : Counted w) :
    w.recordCount.toNat = w.nodes.entries.length % 65536 := by
  rw [h, UInt16.toNat_ofNat']

theorem validSelection_iff {sort : SortById} {w : KeyedWindow} (h : Counted w.toNodeInfoWindow) :
    ValidSelection sort w ↔ InRange w ∧ w.nodes.entries.length ≤ 65536 := by
  have hcount := counted_toNat h
  unfold ValidSelection
  refine and_congr_right fun hrange => ?_
  obtain ⟨hlow, hhigh⟩ := hrange
  constructor
  · intro hone
    by_contra hmany
    have htwo : 2 ≤ (w.rows sort).countP (·.2) := by
      refine two_marked hlow ?_ ?_
      all_goals
        omega
    have := hone (by omega)
    omega
  · intro hn hpos
    exact marked_of_le hn hlow (by omega)

/-! ## Steps and runs -/

theorem validSelection_step_iff {sort : SortById} {w : KeyedWindow} (levels : LevelNames)
    (hfocused : w.focused = true) (hcounted : Counted w.toNodeInfoWindow)
    (hvalid : ValidSelection sort w) (input : Input) :
    ValidSelection sort (w.step sort levels input) ↔ Safe w input := by
  obtain ⟨hrange, hn⟩ := (validSelection_iff hcounted).mp hvalid
  have hcount := counted_toNat hcounted
  have hnode := toNodeInfoWindow_step sort levels w input
  cases input with
  | key key available =>
    have hcounted' : Counted (w.step sort levels (.key key available)).toNodeInfoWindow := by
      rw [hnode]
      exact hcounted
    rw [validSelection_iff hcounted', hnode]
    unfold InRange
    rw [hnode, recordSelected_key]
    show (_ ∧ _ ≤ max 0 ((w.recordCount.toNat : Int) - 1)) ∧ w.nodes.entries.length ≤ 65536 ↔ _
    rw [and_iff_left hn]
    unfold KeyedWindow.selectedAfter Safe
    have hdiff : keyUp ≠ keyDown := by decide
    have hlow := hrange.1
    have hhigh := hrange.2
    by_cases hup : key = keyUp
    · rw [if_pos ⟨hfocused, hup⟩, toInt_decrement hlow]
      refine iff_of_true ⟨by omega, by omega⟩ fun hdown => ?_
      exact absurd (hup.symm.trans hdown) hdiff
    · rw [if_neg (fun h => hup h.2)]
      by_cases hdown : key = keyDown
      · rw [if_pos ⟨hfocused, hdown⟩, toInt_increment hrange]
        have hlt := w.recordSelected.toInt_lt
        constructor
        · rintro ⟨hlow', hhigh'⟩ -
          split_ifs at hlow' hhigh' <;> omega
        · intro hsafe
          obtain ⟨hzero, hmax⟩ := hsafe hdown
          rw [if_neg hzero, if_neg (by omega)]
          omega
      · rw [if_neg (fun h => hdown h.2)]
        exact iff_of_true hrange fun h => absurd h hdown
  | event e =>
    have hnode' : (w.step sort levels (.event e)).toNodeInfoWindow = step w.toNodeInfoWindow e := hnode
    have hcounted' : Counted (w.step sort levels (.event e)).toNodeInfoWindow := by
      rw [hnode']
      exact counted_step hcounted e
    have hcount' := counted_toNat hcounted'
    rw [validSelection_iff hcounted']
    unfold InRange Safe
    rw [recordSelected_event, hcount', hnode']
    have hlow := hrange.1
    have hhigh := hrange.2
    by_cases hnew : e.isNew w.toNodeInfoWindow
    · rw [(length_step_of_new hnew).1]
      constructor
      · rintro ⟨⟨_, hhigh'⟩, hn'⟩ -
        omega
      · intro hsafe
        have := hsafe hnew
        omega
    · rw [(length_step_of_known hnew).1]
      exact iff_of_true ⟨⟨hlow, by omega⟩, hn⟩ fun h => absurd h hnew

theorem counted_run (sort : SortById) (levels : LevelNames) (t : Rat) (hasWindow focused : Bool)
    (inputs : List Input) :
    Counted (run (KeyedWindow.step sort levels) (.initial t hasWindow focused) inputs).toNodeInfoWindow := by
  refine run_invariant (I := fun _ (w : KeyedWindow) => Counted w.toNodeInfoWindow) ?_ ?_ inputs
  · unfold Counted
    rfl
  · intro past w input h
    rw [toNodeInfoWindow_step]
    cases input with
    | key key available => exact h
    | event e => exact counted_step h e

/-- **Selection.** The selection of a focused window is valid after every input exactly if every input is
safe. -/
theorem selection_valid_iff (sort : SortById) (levels : LevelNames) (t : Rat) (hasWindow : Bool)
    (inputs : List Input) :
    Every (fun past input => ValidSelection sort
        (run (KeyedWindow.step sort levels) (.initial t hasWindow true) (past ++ [input]))) inputs ↔
      Every (fun past input => Safe
        (run (KeyedWindow.step sort levels) (.initial t hasWindow true) past) input) inputs := by
  refine every_congr (fun past input hpast => ?_) inputs
  have hvalid : ValidSelection sort
      (run (KeyedWindow.step sort levels) (.initial t hasWindow true) past) := by
    rcases List.eq_nil_or_concat' past with rfl | ⟨before, last, rfl⟩
    · exact ⟨⟨le_rfl, le_max_left _ _⟩, fun h => absurd h (Nat.lt_irrefl 0)⟩
    · exact (every_concat.mp hpast).2
  rw [run_concat]
  exact validSelection_step_iff levels (focused_run sort levels _ past)
    (counted_run sort levels t hasWindow true past) hvalid input

def insertionById : SortById where
  sort := List.insertionSort fun a b => a.id ≤ b.id
  perm := List.perm_insertionSort _
  sorted := List.pairwise_insertionSort _

/-- The down key, and then the first heartbeat of a node. -/
def keyDownFirst : List Input :=
  [.key keyDown fun _ => false,
   .event (.heartbeat ⟨"DevComputer2", "imu_node", "/robot/imu_node1", .running⟩)]

/-- The down key before the first node selects no record, and the row of the node is not marked. -/
theorem keyDownFirst_not_valid :
    (let w := run (KeyedWindow.step insertionById loggerLevels) (.initial 0 true true) keyDownFirst
     w.recordSelected.toInt = -1 ∧ w.nodes.entries.length = 1 ∧
       (w.rows insertionById).countP (·.2) = 0) ∧
      ¬ Every (fun past input => ValidSelection insertionById
        (run (KeyedWindow.step insertionById loggerLevels) (.initial 0 true true) (past ++ [input])))
        keyDownFirst := by
  refine ⟨by decide, fun h => ?_⟩
  have hvalid := h [] (.key keyDown fun _ => false) _ rfl
  exact absurd hvalid.1 (by decide)

end SystemMonitor
