import Mathlib.Data.Prod.Lex
import Mathlib.Data.String.Basic
import Mathlib.Data.List.Sort
import Mathlib.Algebra.Order.Ring.Rat
import RobotFramework.DepthFirst

/-!
# The time of a message

`_timestamp_seconds` looks for the first value with a time in a message of any nesting, twelve levels deep.
A message is a tree of objects, lists and tuples; an object has an identity, and its fields are named by
`get_fields_and_field_types` or by its slots. The type of the other values is a parameter, and so is
`int(sec) + int(nanosec) / 1e9`, which may fail.
-/

namespace LogAnalysis

open DepthFirst

/-! ## The code -/

/-- A Python value, as `_timestamp_seconds` sees it. The attributes of a list or tuple are those of its
class, such as the names of a named tuple. -/
inductive Value (π : Type) where
  | none
  | primitive (p : π)
  | sequence (attributes : List (String × Value π)) (items : List (Value π))
  | object (id : Nat) (fieldTypes : Option (List String)) (slots : List String)
      (attributes : List (String × Value π))

variable {π τ : Type}

def Value.attributes : Value π → List (String × Value π)
  | .sequence attributes _ => attributes
  | .object _ _ _ attributes => attributes
  | _ => []

/-- `getattr(value, name, default)`. -/
def Value.getattr (value : Value π) (name : String) (default : Value π) : Value π :=
  (value.attributes.lookup name).getD default

def Value.isNone : Value π → Bool
  | .none => true
  | _ => false

/-- `name.lstrip("_")`. -/
def lstripUnderscores (name : String) : String := String.ofList (name.toList.dropWhile (· = '_'))

/-- `field_names` before it is sorted. -/
def Value.fieldNames : Value π → List String
  | .object _ (some fieldTypes) _ _ => fieldTypes
  | .object _ Option.none slots _ => slots.map lstripUnderscores
  | _ => []

/-- The key of `field_names.sort`. -/
def fieldKey (name : String) : Bool ×ₗ String :=
  toLex (decide (name ∉ ["header", "stamp", "timestamp"]), name)

/-- `field_names.sort(key=...)`. -/
def sortFields (names : List String) : List String :=
  names.insertionSort fun a b => fieldKey a ≤ fieldKey b

section Seconds

-- `int(seconds) + int(nanoseconds) / 1e9`, or nothing if it raises one of the caught exceptions.
variable (seconds : Value π → Value π → Option τ)

/-- The time of a value that has one. -/
def Value.time (value : Value π) : Option τ :=
  let sec := value.getattr "sec" .none
  let nanosec := value.getattr "nanosec" (value.getattr "nsec" .none)
  if !sec.isNone && !nanosec.isNone then seconds sec nanosec else Option.none

/-- `visit`. The levels that are left count down where the depth counts up. -/
def visit : Nat → Value π → List Nat → Option τ × List Nat
  | 0, _, visited => (Option.none, visited)
  | _ + 1, .none, visited => (Option.none, visited)
  | _ + 1, .primitive _, visited => (Option.none, visited)
  | levels + 1, .sequence attributes items, visited =>
    match (Value.sequence attributes items).time seconds with
    | some result => (some result, visited)
    | Option.none => visitAll (visit levels) items visited
  | levels + 1, .object id fieldTypes slots attributes, visited =>
    let value := Value.object id fieldTypes slots attributes
    match value.time seconds with
    | some result => (some result, visited)
    | Option.none =>
      if id ∈ visited then (Option.none, visited)
      else
        visitAll (visit levels) ((sortFields value.fieldNames).map fun name => value.getattr name .none)
          (id :: visited)

/-- `_timestamp_seconds`. A depth of at most 12 is one of 13 levels. -/
def timestampSeconds (message : Value π) : Option τ := (visit seconds 13 message []).1

end Seconds

/-! ## The message as a tree -/

/-- The fields searched before the others. -/
def isFirst (name : String) : Bool := name ∈ ["header", "stamp", "timestamp"]

/-- The header, the stamp and the timestamp before the other fields, each in alphabetical order. -/
def searchOrder (names : List String) : List String :=
  (names.filter isFirst).insertionSort (· ≤ ·) ++ (names.filter (!isFirst ·)).insertionSort (· ≤ ·)

/-- The items of a sequence, or the values of the fields of an object. -/
def Value.children : Value π → List (Value π)
  | .sequence _ items => items
  | value => (searchOrder value.fieldNames).map fun name => value.getattr name .none

def Value.objectId : Value π → Option Nat
  | .object id _ _ _ => some id
  | _ => Option.none

theorem sizeOf_lt_of_mem_children {value child : Value π} (h : child ∈ value.children) :
    sizeOf child < sizeOf value := by
  cases value with
  | none | primitive p => cases h
  | sequence attributes items =>
    have hitem : sizeOf child < sizeOf items := List.sizeOf_lt_of_mem h
    rw [Value.sequence.sizeOf_spec]
    omega
  | object id fieldTypes slots attributes =>
    obtain ⟨name, -, rfl⟩ := List.mem_map.mp h
    show sizeOf ((attributes.lookup name).getD .none) < _
    rw [Value.object.sizeOf_spec]
    cases hlookup : attributes.lookup name with
    | none =>
      have hattributes : 0 < sizeOf attributes := by cases attributes <;> simp
      rw [Option.getD_none, Value.none.sizeOf_spec]
      omega
    | some v =>
      obtain ⟨before, after, hsplit, -⟩ := List.lookup_eq_some_iff.mp hlookup
      have hmem : (name, v) ∈ attributes := by
        rw [hsplit]
        exact List.mem_append_right _ List.mem_cons_self
      have hattribute := List.sizeOf_lt_of_mem hmem
      rw [Prod.mk.sizeOf_spec] at hattribute
      rw [Option.getD_some]
      omega

/-- A message and the values below it in pre-order, each with its depth. -/
def Value.preorder (depth : Nat) (value : Value π) : List (Nat × Value π) :=
  (depth, value) :: value.children.attach.flatMap fun child => child.1.preorder (depth + 1)
termination_by sizeOf value
decreasing_by exact sizeOf_lt_of_mem_children child.2

theorem isTraversal_preorder : IsTraversal (@Value.children π) Value.preorder := by
  intro depth value
  rw [Value.preorder]
  simp

/-- No object is reached on two paths. -/
def Value.TreeShaped (message : Value π) : Prop :=
  ((message.preorder 0).filterMap fun p => p.2.objectId).Nodup

/-! ## The order of the fields -/

theorem fieldKey_le_iff (a b : String) :
    fieldKey a ≤ fieldKey b ↔ (isFirst a = true ∧ isFirst b = false) ∨ (isFirst a = isFirst b ∧ a ≤ b) := by
  have hkey : ∀ name, decide (name ∉ ["header", "stamp", "timestamp"]) = !isFirst name := by
    intro name
    exact decide_not
  unfold fieldKey
  rw [Prod.Lex.toLex_le_toLex, hkey, hkey]
  cases isFirst a <;> cases isFirst b <;> simp

theorem fieldKey_injective : Function.Injective fieldKey := by
  intro a b h
  exact congrArg (fun key => (ofLex key).2) h

theorem pairwise_sortFields (names : List String) :
    (sortFields names).Pairwise (fieldKey · ≤ fieldKey ·) := by
  have htotal : Std.Total fun a b => fieldKey a ≤ fieldKey b := ⟨fun _ _ => le_total _ _⟩
  have htrans : IsTrans String fun a b => fieldKey a ≤ fieldKey b := ⟨fun _ _ _ => le_trans⟩
  exact List.pairwise_insertionSort _ names

theorem sortFields_eq_searchOrder (names : List String) : sortFields names = searchOrder names := by
  have hperm : (sortFields names).Perm (searchOrder names) := by
    refine (List.perm_insertionSort _ names).trans ?_
    refine (List.filter_append_perm isFirst names).symm.trans ?_
    exact (List.perm_insertionSort _ _).symm.append (List.perm_insertionSort _ _).symm
  have hblock : ∀ (first : Bool) (block : List String), (∀ a ∈ block, isFirst a = first) →
      (block.insertionSort (· ≤ ·)).Pairwise (fieldKey · ≤ fieldKey ·) := by
    intro first block hblock
    refine (List.pairwise_insertionSort (· ≤ ·) block).imp_of_mem fun ha hb hle => ?_
    rw [List.mem_insertionSort] at ha hb
    exact (fieldKey_le_iff _ _).mpr (.inr ⟨(hblock _ ha).trans (hblock _ hb).symm, hle⟩)
  have hfirst : ∀ a ∈ names.filter isFirst, isFirst a = true := fun a ha => (List.mem_filter.mp ha).2
  have hother : ∀ a ∈ names.filter (!isFirst ·), isFirst a = false := fun a ha => by
    simpa using (List.mem_filter.mp ha).2
  have hsorted : (searchOrder names).Pairwise (fieldKey · ≤ fieldKey ·) := by
    refine List.pairwise_append.mpr ⟨hblock true _ hfirst, hblock false _ hother, ?_⟩
    intro a ha b hb
    rw [List.mem_insertionSort] at ha hb
    exact (fieldKey_le_iff a b).mpr (.inl ⟨hfirst a ha, hother b hb⟩)
  exact hperm.eq_of_pairwise (fun _ _ _ _ hab hba => fieldKey_injective (le_antisymm hab hba))
    (pairwise_sortFields names) hsorted

theorem searchOrder_eq_cons {names : List String} {name : String} (hmem : name ∈ names)
    (hleast : ∀ other ∈ names, fieldKey name ≤ fieldKey other) :
    ∃ rest, searchOrder names = name :: rest := by
  have hsorted := pairwise_sortFields names
  have hperm : (sortFields names).Perm names := List.perm_insertionSort _ names
  rw [← sortFields_eq_searchOrder]
  cases hsort : sortFields names with
  | nil =>
    rw [hsort] at hperm
    exact absurd (hperm.mem_iff.mpr hmem) List.not_mem_nil
  | cons first rest =>
    rw [hsort] at hperm hsorted
    have hle : fieldKey first ≤ fieldKey name := by
      rcases List.mem_cons.mp (hperm.mem_iff.mpr hmem) with rfl | hrest
      · exact le_rfl
      · exact (List.pairwise_cons.mp hsorted).1 name hrest
    have hge := hleast first (hperm.mem_iff.mp List.mem_cons_self)
    rw [fieldKey_injective (le_antisymm hle hge)]
    exact ⟨rest, rfl⟩

theorem fieldKey_header_le (name : String) : fieldKey "header" ≤ fieldKey name := by
  rw [fieldKey_le_iff]
  by_cases hname : name ∈ ["header", "stamp", "timestamp"]
  · refine .inr ⟨(decide_eq_true hname).symm, ?_⟩
    simp only [List.mem_cons, List.not_mem_nil, or_false] at hname
    rcases hname with rfl | rfl | rfl <;> decide
  · exact .inl ⟨rfl, decide_eq_false hname⟩

/-! ## The search -/

section Seconds

variable {seconds : Value π → Value π → Option τ}

/-- The search of the code is a depth-first search. -/
theorem visit_eq_search (levels : Nat) : ∀ (value : Value π) (visited : List Nat),
    visit seconds levels value visited =
      search Value.children Value.objectId (Value.time seconds) levels value visited := by
  induction levels with
  | zero => exact fun _ _ => rfl
  | succ levels ih =>
    intro value visited
    have hvisit : visit seconds levels =
        search Value.children Value.objectId (Value.time seconds) levels := funext₂ ih
    cases value with
    | none => rfl
    | primitive p => rfl
    | sequence attributes items =>
      rw [visit, search, hvisit]
      rfl
    | object id fieldTypes slots attributes =>
      rw [visit, search, hvisit, sortFields_eq_searchOrder]
      rfl

/-- On a tree the search returns the first time in pre-order down to a depth of 12. -/
theorem timestampSeconds_eq (seconds : Value π → Value π → Option τ) {message : Value π}
    (htree : message.TreeShaped) :
    timestampSeconds seconds message =
      ((message.preorder 0).filter (·.1 ≤ 12)).findSome? fun p => p.2.time seconds := by
  have hlevels : ((message.preorder 0).filter (·.1 ≤ 12)).map Prod.snd =
      DepthFirst.preorder Value.children 13 message := by
    rw [← isTraversal_preorder.filter_depth 13 0 message]
    congr 2
    funext p
    exact decide_eq_decide.mpr (by omega)
  have hkeys : ((DepthFirst.preorder Value.children 13 message).filterMap Value.objectId).Nodup := by
    rw [← hlevels, List.filterMap_map]
    exact htree.sublist (List.filter_sublist.filterMap _)
  unfold timestampSeconds
  rw [visit_eq_search, search_eq_findSome? hkeys, ← hlevels, List.findSome?_map]
  rfl

/-- A `std_msgs` header: its fields are `stamp` and `frame_id`, and it has no other attributes. -/
structure Value.IsHeader (header : Value π) : Prop where
  fields : header.fieldNames.Perm ["stamp", "frame_id"]
  attributes : ∀ p ∈ header.attributes, p.1 ∈ ["stamp", "frame_id"]

/-- The first time in pre-order below a value at some depth, down to a depth of 12. -/
def firstTime (seconds : Value π → Value π → Option τ) (depth : Nat) (value : Value π) : Option τ :=
  ((value.preorder depth).filter (·.1 ≤ 12)).findSome? fun p => p.2.time seconds

theorem firstTime_of_time {value : Value π} {depth : Nat} {t : τ} (hdepth : depth ≤ 12)
    (ht : value.time seconds = some t) : firstTime seconds depth value = some t := by
  unfold firstTime
  rw [isTraversal_preorder, List.filter_cons_of_pos (by simpa using hdepth), List.findSome?_cons, ht]

/-- A value without a time of its own has the one below its first field. -/
theorem firstTime_of_first {value : Value π} {name : String} {rest : List String} {depth : Nat} {t : τ}
    (hdepth : depth ≤ 12) (hnone : value.time seconds = Option.none)
    (hfields : searchOrder value.fieldNames = name :: rest)
    (ht : firstTime seconds (depth + 1) (value.getattr name .none) = some t) :
    firstTime seconds depth value = some t := by
  have hchildren : value.children = value.getattr name .none :: rest.map (value.getattr · .none) := by
    cases value with
    | object => exact congrArg (List.map _) hfields
    | none | primitive | sequence => cases hfields
  unfold firstTime at ht ⊢
  rw [isTraversal_preorder, hchildren, List.flatMap_cons, List.filter_cons_of_pos (by simpa using hdepth),
    List.findSome?_cons, hnone, List.filter_append, List.findSome?_append, ht, Option.some_or]

theorem firstTime_header {header : Value π} {depth : Nat} {t : τ} (hdepth : depth < 12)
    (hheader : header.IsHeader) (ht : (header.getattr "stamp" .none).time seconds = some t) :
    firstTime seconds depth header = some t := by
  have hnone : header.time seconds = Option.none := by
    have hlookup : header.attributes.lookup "sec" = Option.none := by
      rw [List.lookup_eq_none_iff]
      intro p hp
      have hname := hheader.attributes p hp
      simp only [List.mem_cons, List.not_mem_nil, or_false] at hname
      rcases hname with hname | hname
      · rw [hname]
        decide
      · rw [hname]
        decide
    unfold Value.time Value.getattr
    rw [hlookup]
    rfl
  have hstamp : "stamp" ∈ header.fieldNames := hheader.fields.mem_iff.mpr List.mem_cons_self
  obtain ⟨rest, hrest⟩ := searchOrder_eq_cons hstamp fun other hother => by
    have := hheader.fields.mem_iff.mp hother
    simp only [List.mem_cons, List.not_mem_nil, or_false] at this
    rcases this with rfl | rfl
    · exact le_rfl
    · exact (fieldKey_le_iff _ _).mpr (.inl ⟨by decide, by decide⟩)
  exact firstTime_of_first hdepth.le hnone hrest (firstTime_of_time hdepth ht)

/-- **The time of a message.** On every tree the search returns the first time in pre-order among the
values at a depth of at most 12, and nothing exactly if there is none. A message with a header that is not
a time itself has the time of the header's stamp. -/
theorem timestampSeconds_spec (seconds : Value π → Value π → Option τ) (message : Value π)
    (htree : message.TreeShaped) :
    timestampSeconds seconds message =
        ((message.preorder 0).filter (·.1 ≤ 12)).findSome? (fun p => p.2.time seconds) ∧
      (timestampSeconds seconds message = Option.none ↔
        ∀ p ∈ message.preorder 0, p.1 ≤ 12 → p.2.time seconds = Option.none) ∧
      (message.time seconds = Option.none → "header" ∈ message.fieldNames →
        (message.getattr "header" .none).IsHeader →
        (((message.getattr "header" .none).getattr "stamp" .none).time seconds).isSome →
        timestampSeconds seconds message =
          ((message.getattr "header" .none).getattr "stamp" .none).time seconds) := by
  have hsearch := timestampSeconds_eq seconds htree
  refine ⟨hsearch, ?_, fun hnone hfield hheader hstamp => ?_⟩
  · rw [hsearch, List.findSome?_eq_none_iff]
    simp
  · obtain ⟨t, ht⟩ := Option.isSome_iff_exists.mp hstamp
    obtain ⟨rest, hrest⟩ := searchOrder_eq_cons hfield fun other _ => fieldKey_header_le other
    rw [hsearch, ht]
    exact firstTime_of_first (Nat.zero_le _) hnone hrest (firstTime_header (by decide) hheader ht)

end Seconds

def exactSeconds : Value (Int ⊕ String) → Value (Int ⊕ String) → Option Rat
  | .primitive (.inl sec), .primitive (.inl nanosec) => some (sec + nanosec / 1000000000)
  | _, _ => none

/-- `builtin_interfaces::msg::Time`. -/
def timeMsg (id : Nat) (sec nanosec : Int) : Value (Int ⊕ String) :=
  .object id (some ["sec", "nanosec"]) []
    [("sec", .primitive (.inl sec)), ("nanosec", .primitive (.inl nanosec))]

/-- A message with a header and a time of its own that comes before it in the alphabet. -/
def stampedAlarm : Value (Int ⊕ String) :=
  .object 0 (some ["alarm_time", "header"]) []
    [("alarm_time", timeMsg 1 3 0),
     ("header", .object 2 none ["_stamp", "_frame_id"]
        [("stamp", timeMsg 3 12 500000000), ("frame_id", .primitive (.inr "base_link"))])]

theorem stampedAlarm_time :
    stampedAlarm.TreeShaped ∧ timestampSeconds exactSeconds stampedAlarm = some (25 / 2) := by
  have htree : stampedAlarm.TreeShaped := by
    have hprimitive : ∀ depth (p : Int ⊕ String),
        (Value.primitive p).preorder depth = [(depth, .primitive p)] :=
      fun depth p => isTraversal_preorder depth (.primitive p)
    have htime : ∀ depth id sec nanosec, (timeMsg id sec nanosec).preorder depth =
        [(depth, timeMsg id sec nanosec), (depth + 1, .primitive (.inl nanosec)),
          (depth + 1, .primitive (.inl sec))] := by
      intro depth id sec nanosec
      refine (isTraversal_preorder depth (timeMsg id sec nanosec)).trans ?_
      show _ :: ((Value.primitive _).preorder _ ++ ((Value.primitive _).preorder _ ++ [])) = _
      rw [hprimitive, hprimitive]
      rfl
    unfold Value.TreeShaped
    rw [isTraversal_preorder]
    show (List.filterMap _ (_ :: ((Value.object ..).preorder 1 ++ ((timeMsg 1 3 0).preorder 1 ++ [])))).Nodup
    rw [isTraversal_preorder, htime]
    show (List.filterMap _ (_ :: (_ :: ((timeMsg 3 12 500000000).preorder 2 ++
      ((Value.primitive _).preorder 2 ++ [])) ++ _))).Nodup
    rw [htime, hprimitive]
    decide
  refine ⟨htree, ?_⟩
  obtain ⟨-, -, hheader⟩ := timestampSeconds_spec exactSeconds stampedAlarm htree
  rw [hheader rfl (by decide) ⟨by decide, by decide⟩ (by decide)]
  decide +kernel

end LogAnalysis
