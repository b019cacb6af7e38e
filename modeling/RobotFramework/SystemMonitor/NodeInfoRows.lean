import Mathlib.Algebra.Order.Ring.Rat
import Mathlib.Data.Rat.Lemmas
import Mathlib.Tactic.Linarith
import RobotFramework.SystemMonitor.StableRows

/-!
# The rows of the node window

`getNodeInfo` composes the row of a node column by column. Most columns append the text padded by
`width - tempstr.size()`, which is unsigned, and not all cut the text first. A `std::string` is the list of
its characters.
-/

namespace SystemMonitor

open History

/-! ## The code -/

/-- `NodeInfoWindow::NodeFieldColumn`. -/
inductive NodeFieldColumn where
  | marker
  | id
  | hostname
  | nodename
  | status
  | readyToArm
  | restarts
  | pid
  | cpu
  | ram
  | rx
  deriving DecidableEq

structure Field where
  text : String
  width : Nat

/-- `m_nodeWindowFields`. -/
abbrev NodeWindowFields := List (NodeFieldColumn × Field)

def nodeWindowFields : NodeWindowFields :=
  [(.marker, ⟨"", 3⟩), (.id, ⟨"ID", 4⟩), (.nodename, ⟨" NodeName ", 70⟩), (.status, ⟨" Status ", 14⟩),
   (.readyToArm, ⟨" Ready To Arm ", 15⟩), (.rx, ⟨" Rx ", 6⟩)]

/-- The sum of the column widths. -/
def NodeWindowFields.width (fields : NodeWindowFields) : Nat := (fields.map (·.2.width)).sum

/-- The members of `NodeData` that nothing writes after its construction. -/
structure NodeResources where
  pid : UInt16
  restartCount : UInt64
  cpuUsedPerc : Rat
  memUsedPerc : Rat

/-- What can go wrong in a row: a `std::string` that is too long, or a text that does not fit the buffer
it is printed to. -/
inductive RowError where
  | lengthError
  | bufferOverflow
  deriving DecidableEq

/-- `a - b` on `std::size_t`. -/
def sizeSub (a b : Nat) : Nat := if b ≤ a then a - b else a + 2 ^ 64 - b

/-- `std::string(n, c)`. No string is longer than `PTRDIFF_MAX`. -/
def repeated (n : Nat) (c : Char) : Except RowError (List Char) :=
  if n < 2 ^ 63 then .ok (List.replicate n c) else .error .lengthError

/-- `CoreUtility::pretty`. -/
def NodeState.pretty (s : NodeState) : String :=
  match s.state with
  | 0 => "UNKNOWN"
  | 1 => "INITIALIZING"
  | 2 => "STARTING"
  | 3 => "RUNNING"
  | 4 => "PAUSED"
  | 5 => "RESTART"
  | 6 => "FINISHED"
  | _ => "UNKNOWN"

/-- `n / d` to the nearest integer, and to the even one of two. -/
def roundHalfEven (n d : Nat) : Nat :=
  if d < 2 * (n % d) ∨ (2 * (n % d) = d ∧ n / d % 2 = 1) then n / d + 1 else n / d

/-- `%.2f`. A minimum width of 2 or 3 is always reached. -/
def printFixed2 (x : Rat) : List Char :=
  let cents := roundHalfEven (x.num.natAbs * 100) x.den
  (if x < 0 then ['-'] else []) ++ (cents / 100).repr.toList ++
    ['.', Nat.digitChar (cents % 100 / 10), Nat.digitChar (cents % 10)]

/-- `sprintf` to a buffer of 8 bytes. -/
def sprintf8 (text : List Char) : Except RowError (List Char) :=
  if text.length < 8 then .ok text else .error .bufferOverflow

/-- Removes the first occurrence of a text. -/
def removeFirst (text : List Char) : List Char → List Char
  | [] => []
  | c :: rest =>
    if text.isPrefixOf (c :: rest) then (c :: rest).drop text.length else c :: removeFirst text rest

/-- What a column appends to the row: a text as it is, or padded with spaces. -/
inductive ColumnText where
  | whole (tempstr : List Char)
  | padded (tempstr : List Char)

/-- The text that a column appends to the row. -/
def columnText (node : NodeData) (resources : NodeResources) (selected : Bool) (width : Nat) :
    NodeFieldColumn → Except RowError ColumnText
  | .marker => .ok (.whole (List.replicate width (if selected then '*' else ' ')))
  | .id => .ok (.padded node.id.toNat.repr.toList)
  | .hostname =>
    let tempstr := node.hostDevice.toList
    if tempstr.length > width then .ok (.whole (tempstr.take (sizeSub width 4) ++ "... ".toList))
    else if tempstr.length > sizeSub width 1 then
      .ok (.whole (tempstr.take (sizeSub width 1) ++ " ".toList))
    else .ok (.padded tempstr)
  | .nodename =>
    let tempstr := removeFirst node.hostDevice.toList node.nodeName.toList
    if tempstr.length > width then .ok (.whole (tempstr.take (sizeSub width 4) ++ "... ".toList))
    else .ok (.padded tempstr)
  | .status => .ok (.padded node.state.pretty.toList)
  | .readyToArm => .ok (.padded node.readyToArm.toList)
  | .restarts => .ok (.padded resources.restartCount.toNat.repr.toList)
  | .pid => .ok (.padded resources.pid.toNat.repr.toList)
  | .cpu => do return .padded (← sprintf8 (printFixed2 resources.cpuUsedPerc))
  | .ram => do return .padded (← sprintf8 (printFixed2 resources.memUsedPerc))
  | .rx => do
    let maxNumberStr ← repeated (sizeSub width 4) '9'
    let maxNum : Rat := 10 ^ maxNumberStr.length - 1 + 99 / 100
    let delta := if node.lastHeartbeatDelta > maxNum then maxNum else node.lastHeartbeatDelta
    let tempstr := (printFixed2 delta).take 63
    return if width > tempstr.length then .padded tempstr else .whole tempstr

/-- The text of a column in the row. -/
def ColumnText.render (width : Nat) : ColumnText → Except RowError (List Char)
  | .whole tempstr => .ok tempstr
  | .padded tempstr => do return tempstr ++ (← repeated (sizeSub width tempstr.length) ' ')

/-- What a column appends to the row. -/
def appended (node : NodeData) (resources : NodeResources) (selected : Bool) (width : Nat)
    (column : NodeFieldColumn) : Except RowError (List Char) := do
  (← columnText node resources selected width column).render width

/-- The row of some columns, without those that are not enabled. -/
def composeRow (fields : NodeWindowFields) (text : Nat → NodeFieldColumn → Except RowError (List Char)) :
    List NodeFieldColumn → Except RowError (List Char)
  | [] => .ok []
  | column :: columns =>
    match fields.lookup column with
    | none => composeRow fields text columns
    | some field => do
      let tempstr ← text field.width column
      let str ← composeRow fields text columns
      return tempstr ++ str

/-- The columns in the order of a row. -/
def rowColumns : List NodeFieldColumn :=
  [.marker, .id, .hostname, .nodename, .status, .readyToArm, .restarts, .pid, .cpu, .ram, .rx]

/-- `NodeInfoWindow::getNodeInfo`. -/
def getNodeInfo (fields : NodeWindowFields) (node : NodeData) (resources : NodeResources)
    (selected : Bool) : Except RowError (List Char) :=
  composeRow fields (appended node resources selected) rowColumns

/-- A text has the width of its column. -/
def Fits (width : Nat) (text : Except RowError (List Char)) : Prop :=
  ∃ str, text = .ok str ∧ str.length = width

/-- No subtraction of a row underflows, and the row is as wide as its columns. -/
structure RowFits (node : NodeData) (resources : NodeResources) (selected : Bool) : Prop where
  padding : ∀ column field tempstr, nodeWindowFields.lookup column = some field →
    columnText node resources selected field.width column = .ok (.padded tempstr) →
      tempstr.length ≤ field.width
  row : Fits nodeWindowFields.width (getNodeInfo nodeWindowFields node resources selected)

/-! ## Two decimals -/

theorem roundHalfEven_lt_iff {n d m : Nat} (hd : 0 < d) (hm : m % 2 = 0) :
    roundHalfEven n d < m ↔ 2 * n + d < 2 * (d * m) := by
  have hn := Nat.div_add_mod n d
  have hr := Nat.mod_lt n hd
  unfold roundHalfEven
  generalize n / d = q at hn ⊢
  generalize n % d = r at hn hr ⊢
  have hle : m ≤ q → d * m ≤ d * q := Nat.mul_le_mul_left d
  have heq : q + 1 = m → d * (q + 1) = d * m := congrArg (d * ·)
  have hlt : q + 1 ≤ m → d * (q + 1) ≤ d * m := Nat.mul_le_mul_left d
  have hlt' : q + 2 ≤ m → d * (q + 2) ≤ d * m := Nat.mul_le_mul_left d
  rw [Nat.mul_add] at heq hlt hlt'
  split_ifs with hup
  · constructor
    · intro hround
      have := hlt' (by omega)
      omega
    · intro hn'
      by_contra hround
      rcases Nat.lt_or_ge q m with hq | hq
      · have := heq (by omega)
        omega
      · have := hle hq
        omega
  · constructor
    · intro hround
      have := hlt hround
      by_cases hq : q + 2 ≤ m
      · have := hlt' hq
        omega
      · -- Here `q` is odd, so half a unit would have been rounded up.
        omega
    · intro hn'
      by_contra hround
      have := hle (by omega)
      omega

theorem cents_lt_iff (x : Rat) :
    roundHalfEven (x.num.natAbs * 100) x.den < 10000 ↔ |x| < 19999 / 200 := by
  have hnum : (19999 / 200 : Rat).num = 19999 := by decide +kernel
  have hden : (19999 / 200 : Rat).den = 200 := by decide +kernel
  rw [roundHalfEven_lt_iff x.den_pos rfl, abs_lt, Rat.lt_iff, Rat.lt_iff, Rat.num_neg_eq_neg_num,
    Rat.den_neg_eq_den, hnum, hden]
  omega

theorem length_printFixed2_le_iff {x : Rat} (hx : x ≤ 9999 / 100) :
    (printFixed2 x).length ≤ 6 ↔ -(19999 / 200) < x := by
  have hcents := cents_lt_iff x
  have hdigits := @Nat.length_repr_le_iff (roundHalfEven (x.num.natAbs * 100) x.den / 100) 2 (by decide)
  have hlength : (printFixed2 x).length = (if x < 0 then 1 else 0) +
      (roundHalfEven (x.num.natAbs * 100) x.den / 100).repr.length + 3 := by
    unfold printFixed2
    rw [List.length_append, List.length_append, String.length_toList, apply_ite List.length]
    rfl
  rw [hlength]
  by_cases hneg : x < 0
  · rw [if_pos hneg]
    rw [abs_of_neg hneg] at hcents
    have hbound : -x < 19999 / 200 ↔ -(19999 / 200) < x := neg_lt
    rw [← hbound, ← hcents]
    omega
  · rw [if_neg hneg]
    have habs : |x| < 19999 / 200 := by
      rw [abs_of_nonneg (not_lt.mp hneg)]
      linarith
    have hlow : -(19999 / 200) < x := by linarith [not_lt.mp hneg]
    have := hcents.mpr habs
    exact iff_of_true (by omega) hlow

/-! ## One column -/

theorem bind_eq_ok {α β : Type} {x : Except RowError α} {f : α → Except RowError β} {b : β} :
    (x >>= f) = .ok b ↔ ∃ a, x = .ok a ∧ f a = .ok b := by
  cases x with
  | error e => exact ⟨nofun, nofun⟩
  | ok a => exact ⟨fun h => ⟨a, rfl, h⟩, fun ⟨_, ha, h⟩ => Except.ok.inj ha ▸ h⟩

theorem length_of_repeated {n : Nat} {c : Char} {str : List Char} (h : repeated n c = .ok str) :
    str.length = n := by
  unfold repeated at h
  split_ifs at h
  rw [← Except.ok.inj h, List.length_replicate]

theorem render_padded {width : Nat} {tempstr str : List Char}
    (h : (ColumnText.padded tempstr).render width = .ok str) :
    width ≤ str.length ∧ (str.length = width ↔ tempstr.length ≤ width) := by
  obtain ⟨spaces, hspaces, hstr⟩ := bind_eq_ok.mp h
  rw [← Except.ok.inj hstr, List.length_append, length_of_repeated hspaces]
  unfold sizeSub
  split_ifs <;> omega

theorem fits_padded_iff {width : Nat} {tempstr : List Char} (hwidth : width < 2 ^ 63) :
    Fits width ((ColumnText.padded tempstr).render width) ↔ tempstr.length ≤ width := by
  constructor
  · rintro ⟨str, hstr, hlength⟩
    exact (render_padded hstr).2.mp hlength
  · intro hle
    have hspaces : repeated (sizeSub width tempstr.length) ' ' =
        .ok (List.replicate (width - tempstr.length) ' ') := by
      unfold sizeSub repeated
      rw [if_pos hle, if_pos (by omega)]
    have hrender : (ColumnText.padded tempstr).render width =
        .ok (tempstr ++ List.replicate (width - tempstr.length) ' ') :=
      bind_eq_ok.mpr ⟨_, hspaces, rfl⟩
    exact ⟨_, hrender, (render_padded hrender).2.mpr hle⟩

theorem fits_whole_iff {width : Nat} {tempstr : List Char} :
    Fits width ((ColumnText.whole tempstr).render width) ↔ tempstr.length = width := by
  constructor
  · rintro ⟨str, hstr, hlength⟩
    rwa [Except.ok.inj hstr]
  · exact fun h => ⟨tempstr, rfl, h⟩

section Column

variable {node : NodeData} {resources : NodeResources} {selected : Bool}

theorem appended_of_text {width : Nat} {column : NodeFieldColumn} {text : ColumnText}
    (h : columnText node resources selected width column = .ok text) :
    appended node resources selected width column = text.render width := by
  unfold appended
  rw [h]
  rfl

theorem marker_fits (width : Nat) : Fits width (appended node resources selected width .marker) := by
  rw [appended_of_text rfl, fits_whole_iff, List.length_replicate]

theorem id_fits_iff : Fits 4 (appended node resources selected 4 .id) ↔ node.id.toNat < 10000 := by
  rw [appended_of_text rfl, fits_padded_iff (by decide), String.length_toList,
    Nat.length_repr_le_iff (by decide)]

theorem nodename_fits {width : Nat} (hlow : 4 ≤ width) (hhigh : width < 2 ^ 63) :
    Fits width (appended node resources selected width .nodename) := by
  by_cases hlong : (removeFirst node.hostDevice.toList node.nodeName.toList).length > width
  · have htext : columnText node resources selected width .nodename = .ok (.whole
        ((removeFirst node.hostDevice.toList node.nodeName.toList).take (sizeSub width 4) ++
          "... ".toList)) := if_pos hlong
    rw [appended_of_text htext, fits_whole_iff, List.length_append, List.length_take]
    unfold sizeSub
    rw [if_pos hlow]
    show min (width - 4) _ + 4 = width
    omega
  · have htext : columnText node resources selected width .nodename =
        .ok (.padded (removeFirst node.hostDevice.toList node.nodeName.toList)) := if_neg hlong
    rw [appended_of_text htext, fits_padded_iff hhigh]
    omega

theorem length_pretty_le (s : NodeState) : s.pretty.toList.length ≤ 12 := by
  unfold NodeState.pretty
  split <;> decide

theorem status_fits : Fits 14 (appended node resources selected 14 .status) := by
  rw [appended_of_text rfl, fits_padded_iff (by decide)]
  have := length_pretty_le node.state
  omega

theorem readyToArm_fits_iff :
    Fits 15 (appended node resources selected 15 .readyToArm) ↔ node.readyToArm.toList.length ≤ 15 := by
  rw [appended_of_text rfl, fits_padded_iff (by decide)]

/-- The time since the last message is cut above, at 99.99, but not below zero. -/
theorem rx_fits_iff :
    Fits 6 (appended node resources selected 6 .rx) ↔ -(19999 / 200) < node.lastHeartbeatDelta := by
  have hmax : (10 ^ 2 - 1 + 99 / 100 : Rat) = 9999 / 100 := by norm_num
  obtain ⟨delta, hdelta, hle, hiff⟩ : ∃ delta : Rat,
      delta = (if node.lastHeartbeatDelta > 10 ^ 2 - 1 + 99 / 100 then 10 ^ 2 - 1 + 99 / 100
        else node.lastHeartbeatDelta) ∧ delta ≤ 9999 / 100 ∧
      (-(19999 / 200) < delta ↔ -(19999 / 200) < node.lastHeartbeatDelta) := by
    refine ⟨_, rfl, ?_⟩
    rw [hmax]
    split_ifs with hcap
    · exact ⟨le_rfl, iff_of_true (by norm_num) (by linarith)⟩
    · exact ⟨not_lt.mp hcap, Iff.rfl⟩
  have htext : columnText node resources selected 6 .rx =
      .ok (if 6 > ((printFixed2 delta).take 63).length then .padded ((printFixed2 delta).take 63)
        else .whole ((printFixed2 delta).take 63)) := by
    rw [hdelta]
    rfl
  have hfits : Fits 6 (appended node resources selected 6 .rx) ↔ (printFixed2 delta).length ≤ 6 := by
    rw [appended_of_text htext]
    by_cases hshort : 6 > ((printFixed2 delta).take 63).length
    · rw [if_pos hshort, fits_padded_iff (by decide), List.length_take]
      omega
    · rw [if_neg hshort, fits_whole_iff, List.length_take]
      rw [List.length_take] at hshort
      omega
  rw [hfits, length_printFixed2_le_iff hle, hiff]

theorem appended_long {width : Nat} {column : NodeFieldColumn} {str : List Char}
    (h : appended node resources selected width column = .ok str) : width ≤ str.length := by
  obtain ⟨text, htext, hstr⟩ := bind_eq_ok.mp h
  cases text with
  | padded tempstr => exact (render_padded hstr).1
  | whole tempstr =>
    obtain rfl := Except.ok.inj hstr
    have hcut : ∀ name : List Char, name.length > width →
        width ≤ (name.take (sizeSub width 4) ++ "... ".toList).length := by
      intro name hlong
      rw [List.length_append, List.length_take]
      unfold sizeSub
      show _ ≤ _ + 4
      split_ifs <;> omega
    cases column with
    | marker =>
      cases htext
      rw [List.length_replicate]
    | hostname =>
      dsimp only [columnText] at htext
      split_ifs at htext with hlong hfull
      · cases htext
        exact hcut _ hlong
      · cases htext
        rw [List.length_append, List.length_take]
        unfold sizeSub at hfull ⊢
        show _ ≤ _ + 1
        split_ifs at hfull ⊢ <;> omega
      · cases htext
    | nodename =>
      dsimp only [columnText] at htext
      split_ifs at htext with hlong
      · cases htext
        exact hcut _ hlong
      · cases htext
    | rx =>
      obtain ⟨maxNumberStr, -, htext⟩ := bind_eq_ok.mp htext
      have hshort : ∀ text : List Char, (if width > text.length then ColumnText.padded text
          else .whole text) = .whole tempstr → width ≤ tempstr.length := by
        intro text htext
        split_ifs at htext with hpad
        rw [← ColumnText.whole.inj htext]
        exact not_lt.mp hpad
      exact hshort _ (Except.ok.inj htext)
    | id | status | readyToArm | restarts | pid => cases htext
    | cpu | ram =>
      obtain ⟨_, -, htext⟩ := bind_eq_ok.mp htext
      cases htext

end Column

/-! ## The whole row -/

/-- The width of some columns, without those that are not enabled. -/
def composedWidth (fields : NodeWindowFields) (columns : List NodeFieldColumn) : Nat :=
  (columns.map fun column => (fields.lookup column).elim 0 Field.width).sum

theorem composedWidth_cons (fields : NodeWindowFields) (column : NodeFieldColumn)
    (columns : List NodeFieldColumn) : composedWidth fields (column :: columns) =
      (fields.lookup column).elim 0 Field.width + composedWidth fields columns := by
  unfold composedWidth
  rw [List.map_cons, List.sum_cons]

section Compose

variable {fields : NodeWindowFields} {text : Nat → NodeFieldColumn → Except RowError (List Char)}

theorem composeRow_long (hlong : ∀ width column str, text width column = .ok str → width ≤ str.length)
    {columns : List NodeFieldColumn} {str : List Char} (h : composeRow fields text columns = .ok str) :
    composedWidth fields columns ≤ str.length := by
  induction columns generalizing str with
  | nil => exact Nat.zero_le _
  | cons column columns ih =>
    rw [composeRow] at h
    rw [composedWidth_cons]
    cases hfield : fields.lookup column with
    | none =>
      rw [hfield] at h
      rw [Option.elim_none, Nat.zero_add]
      exact ih h
    | some field =>
      rw [hfield] at h
      obtain ⟨tempstr, htempstr, h⟩ := bind_eq_ok.mp h
      obtain ⟨rest, hrest, hstr⟩ := bind_eq_ok.mp h
      have hfirst := hlong _ _ _ htempstr
      have hothers := ih hrest
      rw [Option.elim_some, ← Except.ok.inj hstr, List.length_append]
      omega

/-- Where no column is too short, a row has its width exactly if each column has. -/
theorem composeRow_fits_iff
    (hlong : ∀ width column str, text width column = .ok str → width ≤ str.length)
    (columns : List NodeFieldColumn) :
    Fits (composedWidth fields columns) (composeRow fields text columns) ↔
      ∀ column ∈ columns, ∀ field, fields.lookup column = some field →
        Fits field.width (text field.width column) := by
  induction columns with
  | nil => exact iff_of_true ⟨[], rfl, rfl⟩ nofun
  | cons column columns ih =>
    rw [List.forall_mem_cons, ← ih, composeRow, composedWidth_cons]
    cases hfield : fields.lookup column with
    | none =>
      rw [Option.elim_none, Nat.zero_add]
      exact ⟨fun h => ⟨nofun, h⟩, fun h => h.2⟩
    | some field =>
      rw [Option.elim_some]
      constructor
      · rintro ⟨str, hstr, hlength⟩
        obtain ⟨tempstr, htempstr, h⟩ := bind_eq_ok.mp hstr
        obtain ⟨rest, hrest, happend⟩ := bind_eq_ok.mp h
        have hfirst := hlong _ _ _ htempstr
        have hothers := composeRow_long hlong hrest
        rw [← Except.ok.inj happend, List.length_append] at hlength
        refine ⟨?_, rest, hrest, by omega⟩
        intro _ hsame
        obtain rfl := Option.some.inj hsame
        exact ⟨tempstr, htempstr, by omega⟩
      · rintro ⟨hfirst, rest, hrest, hothers⟩
        obtain ⟨tempstr, htempstr, hlength⟩ := hfirst field rfl
        refine ⟨tempstr ++ rest, ?_, by rw [List.length_append, hlength, hothers]⟩
        exact bind_eq_ok.mpr ⟨tempstr, htempstr, bind_eq_ok.mpr ⟨rest, hrest, rfl⟩⟩

end Compose

section Row

variable {node : NodeData} {resources : NodeResources} {selected : Bool}

theorem rowFits_of_columns (h : ∀ column ∈ rowColumns, ∀ field, nodeWindowFields.lookup column = some field →
    Fits field.width (appended node resources selected field.width column)) :
    RowFits node resources selected where
  padding column field tempstr hfield htext := by
    have hmem : column ∈ rowColumns := by cases column <;> decide
    obtain ⟨str, hstr, hlength⟩ := h column hmem field hfield
    rw [appended_of_text htext] at hstr
    exact (render_padded hstr).2.mp hlength
  row := (composeRow_fits_iff (fun _ _ _ => appended_long) rowColumns).mpr h

/-- A row fits exactly if its id has at most four digits, its arm state at most 15 characters, and its
time since the last message is not too far below zero. -/
theorem rowFits_iff : RowFits node resources selected ↔ node.id.toNat < 10000 ∧
    node.readyToArm.toList.length ≤ 15 ∧ -(19999 / 200) < node.lastHeartbeatDelta := by
  constructor
  · intro h
    have hcolumns := (composeRow_fits_iff (fun _ _ _ => appended_long) rowColumns).mp h.row
    have hid := hcolumns .id (by decide) _ rfl
    have hready := hcolumns .readyToArm (by decide) _ rfl
    have hrx := hcolumns .rx (by decide) _ rfl
    exact ⟨id_fits_iff.mp hid, readyToArm_fits_iff.mp hready, rx_fits_iff.mp hrx⟩
  · rintro ⟨hid, hready, hrx⟩
    refine rowFits_of_columns fun column _ field hfield => ?_
    cases column with
    | marker => exact Option.some.inj hfield ▸ marker_fits 3
    | id => exact Option.some.inj hfield ▸ id_fits_iff.mpr hid
    | nodename => exact Option.some.inj hfield ▸ nodename_fits (by decide) (by decide)
    | status => exact Option.some.inj hfield ▸ status_fits
    | readyToArm => exact Option.some.inj hfield ▸ readyToArm_fits_iff.mpr hready
    | rx => exact Option.some.inj hfield ▸ rx_fits_iff.mpr hrx
    | hostname | restarts | pid | cpu | ram => cases hfield

/-- An id with more digits asks for a string of almost 2^64 spaces. -/
theorem getNodeInfo_of_id (hid : 10000 ≤ node.id.toNat) :
    getNodeInfo nodeWindowFields node resources selected = .error .lengthError := by
  have hlong : ¬ node.id.toNat.repr.length ≤ 4 := by
    rw [Nat.length_repr_le_iff (by decide)]
    omega
  have hshort : node.id.toNat.repr.length ≤ 5 := by
    rw [Nat.length_repr_le_iff (by decide)]
    exact node.id.toNat_lt.trans (by decide)
  have hspaces : repeated (sizeSub 4 node.id.toNat.repr.toList.length) ' ' = .error .lengthError := by
    unfold sizeSub repeated
    rw [String.length_toList, if_neg hlong, if_neg (by omega)]
  have htext : appended node resources selected 4 .id = .error .lengthError := by
    rw [appended_of_text rfl]
    dsimp only [ColumnText.render]
    rw [hspaces]
    rfl
  have hrow : ∀ columns, composeRow nodeWindowFields (appended node resources selected)
      (.id :: columns) = .error .lengthError := by
    intro columns
    show (appended node resources selected 4 .id >>= _) = _
    rw [htext]
    rfl
  show (appended node resources selected 3 .marker >>= _) = _
  rw [appended_of_text rfl]
  show (composeRow _ _ (.id :: _) >>= _) = _
  rw [hrow]
  rfl

end Row

/-! ## Runs -/

/-- What a record must keep to for its row to fit. -/
structure NodeData.Narrow (d : NodeData) : Prop where
  id : d.id.toNat < 10000
  readyToArm : d.readyToArm.toList.length ≤ 15
  delta : -(19999 / 200) < d.lastHeartbeatDelta

/-- The rows of all records fit. -/
def RowsFit (w : NodeInfoWindow) : Prop :=
  ∀ n d, w.row n = some d → ∀ resources selected, RowFits d resources selected

/-- A new node is one of the first 10000, and an update is less than 99.995 s before the last message of
any node. -/
def SafeStep (w : NodeInfoWindow) (e : Event) : Prop :=
  (e.isNew w → w.nodes.entries.length < 10000) ∧
    ∀ t, e.time = some t → ∀ n d, w.row n = some d → d.lastHeartbeat - t < 19999 / 200

theorem rowsFit_iff {w : NodeInfoWindow} : RowsFit w ↔ ∀ n d, w.row n = some d → d.Narrow := by
  constructor
  · intro h n d hrow
    obtain ⟨hid, hready, hdelta⟩ := rowFits_iff.mp (h n d hrow ⟨0, 0, 0, 0⟩ false)
    exact ⟨hid, hready, hdelta⟩
  · intro h n d hrow resources selected
    have hnarrow := h n d hrow
    exact rowFits_iff.mpr ⟨hnarrow.id, hnarrow.readyToArm, hnarrow.delta⟩

theorem narrow_newHeartbeatMsg {d : NodeData} (h : d.Narrow) (now : Rat) (msg : Heartbeat) :
    (d.newHeartbeatMsg now msg).Narrow :=
  ⟨h.id, h.readyToArm, by show _ < (0 : Rat); norm_num⟩

theorem narrow_newReadyToArmMsg {d : NodeData} (h : d.Narrow) (now : Rat) (msg : ReadyToArm) :
    (d.newReadyToArmMsg now msg).Narrow := by
  refine ⟨h.id, ?_, by show _ < (0 : Rat); norm_num⟩
  show msg.text.toList.length ≤ 15
  unfold ReadyToArm.text
  split_ifs <;> decide

theorem narrow_new_iff {len : Nat} (hlen : len ≤ 10000) (type : NodeType)
    (hostDevice baseNodeName nodeName : String) :
    (NodeData.new (UInt16.ofNat len) type hostDevice baseNodeName nodeName).Narrow ↔ len < 10000 := by
  have hid : (UInt16.ofNat len).toNat = len := UInt16.toNat_ofNat_of_lt' (hlen.trans_lt (by decide))
  constructor
  · intro h
    exact hid ▸ h.id
  · intro hlt
    refine ⟨hid.symm ▸ hlt, ?_, by show _ < (0 : Rat); norm_num⟩
    show "UNKNOWN".toList.length ≤ 15
    decide

theorem narrow_update_iff {d : NodeData} (h : d.Narrow) (t : Rat) :
    (d.update t).Narrow ↔ d.lastHeartbeat - t < 19999 / 200 := by
  have hdelta : (d.update t).lastHeartbeatDelta = t - d.lastHeartbeat := by
    unfold NodeData.update
    dsimp only
    split_ifs <;> rfl
  constructor
  · intro hnarrow
    have := hnarrow.delta
    rw [hdelta] at this
    linarith
  · intro hlate
    refine ⟨?_, ?_, by rw [hdelta]; linarith⟩
    · rw [show (d.update t).id = d.id from congrArg Prod.snd (identity_update t d)]
      exact h.id
    · unfold NodeData.update
      dsimp only
      split_ifs
      · show "UNKNOWN".toList.length ≤ 15
        decide
      · exact h.readyToArm

theorem narrow_received_iff {w : NodeInfoWindow} (h : ∀ n d, w.row n = some d → d.Narrow) {k : String}
    {write : NodeData → NodeData} {new : NodeData} (hwrite : ∀ d, d.Narrow → (write d).Narrow) :
    (∀ n d, received k n write new (w.row n) = some d → d.Narrow) ↔ (w.row k = none → new.Narrow) := by
  constructor
  · intro hall hrow
    refine hall k new ?_
    rw [received_self, hrow]
    rfl
  · intro hnew n d hd
    by_cases hk : k = n
    · subst hk
      rw [received_self] at hd
      obtain rfl := Option.some.inj hd
      cases hrow : w.row k with
      | none => exact hnew hrow
      | some old => exact hwrite old (h k old hrow)
    · unfold received at hd
      rw [if_neg hk] at hd
      exact h n d hd

theorem rowsFit_step_iff {w : NodeInfoWindow} (h : RowsFit w) (hlen : w.nodes.entries.length ≤ 10000)
    (e : Event) : RowsFit (step w e) ↔ SafeStep w e := by
  rw [rowsFit_iff] at h ⊢
  simp only [row_step]
  unfold SafeStep
  cases e with
  | heartbeat msg =>
    rw [Event.isNew_iff rfl, and_iff_left nofun, ← narrow_new_iff hlen .fast msg.hostname msg.baseNodename msg.nodename]
    exact narrow_received_iff h fun d hd => narrow_newHeartbeatMsg hd w.currentTimeSec msg
  | readyToArm msg =>
    rw [Event.isNew_iff rfl, and_iff_left nofun, ← narrow_new_iff hlen .fast "" "" msg.nodename]
    exact narrow_received_iff h fun d hd => narrow_newReadyToArmMsg hd w.currentTimeSec msg
  | update t =>
    have hknown : ¬ (Event.update t).isNew w := fun ⟨_, hn, _⟩ => nomatch hn
    rw [and_iff_right (fun hnew => absurd hnew hknown)]
    constructor
    · rintro hall _ htime n d hrow
      obtain rfl := Option.some.inj htime
      refine (narrow_update_iff (h n d hrow) t).mp (hall n _ ?_)
      show (w.row n).map _ = _
      rw [hrow]
      rfl
    · intro hlate n d' hd'
      obtain ⟨d, hrow, rfl⟩ := Option.map_eq_some_iff.mp hd'
      exact (narrow_update_iff (h n d hrow) t).mpr (hlate t rfl n d hrow)

theorem length_step_le {w : NodeInfoWindow} (hlen : w.nodes.entries.length ≤ 10000) {e : Event}
    (hsafe : SafeStep w e) : (step w e).nodes.entries.length ≤ 10000 := by
  by_cases hnew : e.isNew w
  · rw [(length_step_of_new hnew).1]
    exact hsafe.1 hnew
  · rw [(length_step_of_known hnew).1]
    exact hlen

/-- **Rows.** After every event all rows fit exactly if every event is safe. -/
theorem rows_fit_iff (t : Rat) (hasWindow : Bool) (events : List Event) :
    Every (fun past e => RowsFit (run step (.initial t hasWindow) (past ++ [e]))) events ↔
      Every (fun past e => SafeStep (run step (.initial t hasWindow) past) e) events := by
  symm
  refine every_congr (fun past e hsafe => ?_) events
  obtain ⟨hfit, hlen⟩ : RowsFit (run step (.initial t hasWindow) past) ∧
      (run step (.initial t hasWindow) past).nodes.entries.length ≤ 10000 := by
    induction past using List.reverseRecOn with
    | nil => exact ⟨fun n d hrow => (nomatch hrow), Nat.zero_le _⟩
    | append_singleton past last ih =>
      obtain ⟨hpast, hlast⟩ := every_concat.mp hsafe
      obtain ⟨hfit, hlen⟩ := ih hpast
      rw [run_concat]
      exact ⟨(rowsFit_step_iff hfit hlen last).mpr hlast, length_step_le hlen hlast⟩
  rw [run_concat]
  exact (rowsFit_step_iff hfit hlen e).symm

/-- The clock is set back by 100 s after a heartbeat. -/
def clockSetBack : List Event :=
  [.heartbeat ⟨"DevComputer2", "imu_node", "/robot/imu_node1", .running⟩, .update 200,
   .heartbeat ⟨"DevComputer2", "imu_node", "/robot/imu_node1", .running⟩, .update 100]

/-- The first heartbeat of a node whose name has `i` characters. -/
def heartbeatOf (i : Nat) : Event :=
  .heartbeat ⟨"DevComputer2", "imu_node", String.ofList (List.replicate i 'a'), .running⟩

theorem numbered_heartbeatOf (t : Rat) (hasWindow : Bool) (m : Nat) :
    Numbered ((List.range m).map fun i => String.ofList (List.replicate i 'a'))
      (run step (.initial t hasWindow) ((List.range m).map heartbeatOf)) := by
  induction m with
  | zero => exact numbered_initial t hasWindow
  | succ m ih =>
    rw [List.range_succ, List.map_append, List.map_append]
    show Numbered _ (run step _ (_ ++ [heartbeatOf m]))
    rw [run_concat]
    refine ih.step_of_new rfl fun hmem => ?_
    obtain ⟨i, hi, hname⟩ := List.mem_map.mp hmem
    have hlength := congrArg List.length (String.ofList_injective hname)
    rw [List.length_replicate, List.length_replicate] at hlength
    exact absurd (List.mem_range.mp hi) (by omega)

/-- Ten thousand nodes, and one more. -/
def manyNodes : List Event := (List.range 10001).map heartbeatOf

/-- After the clock is set back the row of the node is a character too long, and the 10001st node has an
id that is too long. -/
theorem rows_not_fit :
    ((run step (.initial 0 true) clockSetBack).row "/robot/imu_node1").map
        (fun d => (getNodeInfo nodeWindowFields d ⟨0, 0, 0, 0⟩ false).toOption.map List.length) =
      some (some (nodeWindowFields.width + 1)) ∧
    ¬ Every (fun past e => RowsFit (run step (.initial 0 true) (past ++ [e]))) clockSetBack ∧
    ¬ Every (fun past e => RowsFit (run step (.initial 0 true) (past ++ [e]))) manyNodes := by
  refine ⟨by decide +kernel, fun hfit => ?_, fun hfit => ?_⟩
  · have hlast := rowsFit_iff.mp (hfit (clockSetBack.take 3) (.update 100) [] rfl) "/robot/imu_node1"
    obtain ⟨d, hrow, hdelta⟩ : ∃ d,
        (run step (.initial 0 true) (clockSetBack.take 3 ++ [.update 100])).row "/robot/imu_node1" =
          some d ∧ d.lastHeartbeatDelta = -100 := ⟨_, rfl, by decide +kernel⟩
    have := (hlast d hrow).delta
    rw [hdelta] at this
    exact absurd this (by decide +kernel)
  · have hsplit : manyNodes = (List.range 10000).map heartbeatOf ++ heartbeatOf 10000 :: [] := by
      unfold manyNodes
      rw [List.range_succ, List.map_append]
      rfl
    have hlast : RowsFit (run step (.initial 0 true) manyNodes) := by
      rw [hsplit]
      exact hfit _ _ _ hsplit
    have hname : ((List.range 10001).map fun i => String.ofList (List.replicate i 'a'))[10000]? =
        some (String.ofList (List.replicate 10000 'a')) := by
      rw [List.getElem?_map, List.getElem?_range (by decide)]
      rfl
    obtain ⟨d, hrow, hidentity⟩ :=
      Option.map_eq_some_iff.mp ((numbered_heartbeatOf 0 true 10001).known hname)
    have hid : d.id = UInt16.ofNat 10000 := congrArg Prod.snd hidentity
    obtain ⟨str, hstr, -⟩ := (hlast _ d hrow ⟨0, 0, 0, 0⟩ false).row
    rw [getNodeInfo_of_id (by rw [hid]; decide)] at hstr
    cases hstr

end SystemMonitor
