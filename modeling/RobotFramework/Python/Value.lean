import Mathlib.Data.List.Basic
import Mathlib.Data.List.Infix
import Mathlib.Data.List.Nodup
import Mathlib.Data.Rat.Defs
import Mathlib.Tactic.Linarith

/-!
# Python values of a YAML document

The values `yaml.safe_load` builds and the builtins a program reads them with: mappings with their
`get`, `in`, `[]` and item assignment, and `==`. Timestamps, binary data and the non-finite floats
are left out.
-/

namespace Python

/-- The exceptions of the modelled code. -/
inductive PyError where
  | typeError
  | attributeError
  | keyError
  | indexError
  | osError
  | valueError
  | yamlError
  | runtimeError (message : String)
  deriving DecidableEq, Repr

/-- What a computation that returns says of its first step and of the rest. -/
theorem bind_ok {α β : Type} {x : Except PyError α} {f : α → Except PyError β} {b : β} :
    (x >>= f) = .ok b ↔ ∃ a, x = .ok a ∧ f a = .ok b := by
  cases x with
  | error e => simp [Bind.bind, Except.bind]
  | ok a => simp [Bind.bind, Except.bind]

theorem ok_bind {α β : Type} (a : α) (f : α → Except PyError β) : (Except.ok a >>= f) = f a := rfl

/-- A scalar; a float is its exact value with the text `repr` gives it. -/
inductive Scalar where
  | none
  | bool (b : Bool)
  | int (n : Int)
  | float (q : Rat) (repr : String)
  | str (s : String)
  deriving DecidableEq, Repr

/-- What hashing and `==` see of a scalar: `True`, `1` and `1.0` are the same key. -/
inductive Key where
  | none
  | num (q : Rat)
  | str (s : String)
  deriving DecidableEq, Repr

/-- The key a scalar is stored under. -/
def Scalar.key : Scalar → Key
  | .none => .none
  | .bool b => .num (if b then 1 else 0)
  | .int n => .num n
  | .float q _ => .num q
  | .str s => .str s

@[simp] theorem Scalar.key_str (s : String) : (Scalar.str s).key = .str s := rfl

theorem Scalar.key_eq_str {k : Scalar} {s : String} : k.key = .str s ↔ k = .str s := by
  cases k <;> simp [Scalar.key]

abbrev Dict (β : Type) := List (Scalar × β)

/-! ## Mappings -/

namespace Dict
variable {β : Type}

/-- `d.get(k)`, with `none` for a missing key. -/
def get : Dict β → Key → Option β
  | [], _ => none
  | (k, v) :: d, j => if k.key = j then some v else get d j

/-- `d[k] = v`: an existing entry keeps its place and its key object. -/
def set : Dict β → Scalar → β → Dict β
  | [], k, v => [(k, v)]
  | (j, w) :: d, k, v => if j.key = k.key then (j, v) :: d else (j, w) :: set d k v

/-- The keys, as hashing sees them. -/
def keys (d : Dict β) : List Key := d.map (·.1.key)

@[simp] theorem get_nil (j : Key) : get ([] : Dict β) j = none := rfl

@[simp] theorem get_cons (k : Scalar) (v : β) (d : Dict β) (j : Key) :
    get ((k, v) :: d) j = if k.key = j then some v else get d j := rfl

@[simp] theorem keys_nil : keys ([] : Dict β) = [] := rfl

@[simp] theorem keys_cons (k : Scalar) (v : β) (d : Dict β) :
    keys ((k, v) :: d) = k.key :: keys d := rfl

theorem get_set (d : Dict β) (k : Scalar) (v : β) (j : Key) :
    get (set d k v) j = if k.key = j then some v else get d j := by
  induction d with
  | nil => rfl
  | cons e d ih =>
    obtain ⟨i, w⟩ := e
    by_cases hi : i.key = k.key
    · simp only [set, if_pos hi, get_cons]
      split_ifs with h h' h'
      · rfl
      · exact absurd (hi.symm.trans h) h'
      · exact absurd (hi.trans h') h
      · rfl
    · simp only [set, if_neg hi, get_cons, ih]
      split_ifs with h h'
      · exact absurd (h.trans h'.symm) hi
      all_goals rfl

@[simp] theorem get_set_self (d : Dict β) (k : Scalar) (v : β) : get (set d k v) k.key = some v := by
  rw [get_set, if_pos rfl]

theorem get_set_of_ne (d : Dict β) {k : Scalar} (v : β) {j : Key} (h : k.key ≠ j) :
    get (set d k v) j = get d j := by
  rw [get_set, if_neg h]

theorem mem_keys_iff {d : Dict β} {j : Key} : j ∈ keys d ↔ ∃ v, get d j = some v := by
  induction d with
  | nil => simp
  | cons e d ih =>
    obtain ⟨k, v⟩ := e
    by_cases h : k.key = j
    · simp [h]
    · simp [h, ih, Ne.symm h]

theorem get_eq_none_iff {d : Dict β} {j : Key} : get d j = none ↔ j ∉ keys d := by
  rw [mem_keys_iff, Option.eq_none_iff_forall_ne_some]
  simp

theorem mem_of_get {d : Dict β} {j : Key} {v : β} (h : get d j = some v) :
    ∃ k, k.key = j ∧ (k, v) ∈ d := by
  induction d with
  | nil => simp at h
  | cons e d ih =>
    obtain ⟨k, w⟩ := e
    rw [get_cons] at h
    split_ifs at h with hk
    · cases h
      exact ⟨k, hk, List.mem_cons_self⟩
    · obtain ⟨i, hi, hmem⟩ := ih h
      exact ⟨i, hi, List.mem_cons_of_mem _ hmem⟩

theorem get_of_mem {d : Dict β} (hd : d.keys.Nodup) {k : Scalar} {v : β} (h : (k, v) ∈ d) :
    get d k.key = some v := by
  induction d with
  | nil => simp at h
  | cons e d ih =>
    obtain ⟨i, w⟩ := e
    rw [keys_cons, List.nodup_cons] at hd
    rcases List.mem_cons.mp h with h | h
    · cases h
      simp
    · have hne : i.key ≠ k.key := by
        intro he
        exact hd.1 (he ▸ List.mem_map_of_mem (f := fun e : Scalar × β => e.1.key) h)
      rw [get_cons, if_neg hne]
      exact ih hd.2 h

theorem keys_set (d : Dict β) (k : Scalar) (v : β) :
    keys (set d k v) = if k.key ∈ keys d then keys d else keys d ++ [k.key] := by
  induction d with
  | nil => simp [set]
  | cons e d ih =>
    obtain ⟨i, w⟩ := e
    by_cases h : i.key = k.key
    · simp [set, h]
    · simp only [set, if_neg h, keys_cons, ih, List.mem_cons, Ne.symm h, false_or]
      split_ifs <;> rfl

theorem nodup_set {d : Dict β} (h : d.keys.Nodup) (k : Scalar) (v : β) : (set d k v).keys.Nodup := by
  rw [keys_set]
  split_ifs with hk
  · exact h
  · rw [List.nodup_append]
    refine ⟨h, by simp, ?_⟩
    intro a ha b hb he
    rw [List.mem_singleton] at hb
    subst hb he
    exact hk ha

theorem mem_set {d : Dict β} {k : Scalar} {v : β} {e : Scalar × β} (h : e ∈ set d k v) :
    e.2 = v ∨ e ∈ d := by
  induction d with
  | nil =>
    left
    rw [set, List.mem_singleton] at h
    rw [h]
  | cons f d ih =>
    obtain ⟨i, w⟩ := f
    rw [set] at h
    split_ifs at h with hi
    · rcases List.mem_cons.mp h with h | h
      · left
        rw [h]
      · exact .inr (List.mem_cons_of_mem _ h)
    · rcases List.mem_cons.mp h with h | h
      · right
        rw [h]
        exact List.mem_cons_self
      · exact (ih h).imp id (List.mem_cons_of_mem _)

end Dict

/-! ## Values -/

/-- A value of a YAML document. -/
inductive Value where
  | scalar (s : Scalar)
  | list (xs : List Value)
  | dict (d : List (Scalar × Value))
  deriving Repr

namespace Value

/-- Python's `None`. -/
abbrev null : Value := .scalar .none

abbrev str (s : String) : Value := .scalar (.str s)

def mapping (entries : List (String × Value)) : Value :=
  .dict (entries.map fun e => (.str e.1, e.2))

/-- `isinstance(v, dict)`. -/
def isDict : Value → Bool
  | .dict _ => true
  | _ => false

/-- `v is True`. -/
def isTrue : Value → Bool
  | .scalar (.bool b) => b
  | _ => false

/-- The mapping's lookup, and nothing for a value that is not a mapping. -/
def field : Value → Key → Option Value
  | .dict d, k => Dict.get d k
  | _, _ => none

@[simp] theorem field_dict (d : Dict Value) (k : Key) : (Value.dict d).field k = Dict.get d k := rfl

theorem isDict_iff {v : Value} : v.isDict = true ↔ ∃ d, v = .dict d := by
  cases v <;> simp [isDict]

theorem isDict_of_field {v w : Value} {k : Key} (h : v.field k = some w) : v.isDict = true := by
  cases v with
  | dict d => rfl
  | _ => cases h

theorem field_of_not_dict {v : Value} (h : v.isDict = false) (k : Key) : v.field k = none := by
  cases v with
  | dict d => cases h
  | _ => rfl

/-- The value at a path of keys through nested mappings. -/
def path (v : Value) : List Key → Option Value
  | [] => some v
  | k :: ks => (v.field k).bind (·.path ks)

@[simp] theorem path_nil (v : Value) : v.path [] = some v := rfl

theorem path_cons (v : Value) (k : Key) (ks : List Key) :
    v.path (k :: ks) = (v.field k).bind (·.path ks) := rfl

theorem path_append (v : Value) (ks js : List Key) :
    v.path (ks ++ js) = (v.path ks).bind (·.path js) := by
  induction ks generalizing v with
  | nil => rfl
  | cons k ks ih =>
    rw [List.cons_append, path_cons, path_cons]
    cases v.field k with
    | none => rfl
    | some w => exact ih w

/-- The elements of a list. Iterating a string or a mapping yields no mapping. -/
def elements : Value → List Value
  | .list xs => xs
  | _ => []

@[simp] theorem elements_list (xs : List Value) : (Value.list xs).elements = xs := rfl

/-- `v.get(k)`: only a mapping has the method. -/
def get : Value → Key → Except PyError (Option Value)
  | .dict d, k => .ok (Dict.get d k)
  | _, _ => .error .attributeError

theorem isDict_of_get {v : Value} {k : Key} {x : Option Value} (h : v.get k = .ok x) :
    v.isDict = true := by
  cases v with
  | dict d => rfl
  | _ => cases h

theorem field_of_get {v : Value} {k : Key} {x : Option Value} (h : v.get k = .ok x) : v.field k = x := by
  cases v with
  | dict d => exact Except.ok.inj h
  | _ => cases h

/-- The hash key of a value; lists and mappings are unhashable. -/
def hash : Value → Except PyError Key
  | .scalar s => .ok s.key
  | _ => .error .typeError

mutual

/-- `v == w`. -/
def eq : Value → Value → Bool
  | .scalar a, .scalar b => a.key = b.key
  | .list xs, .list ys => eqList xs ys
  | .dict d, .dict e => d.length = e.length && eqDict d e
  | _, _ => false

/-- `xs == ys`, element by element. -/
def eqList : List Value → List Value → Bool
  | [], [] => true
  | x :: xs, y :: ys => eq x y && eqList xs ys
  | _, _ => false

/-- Every entry of the first mapping is an equal entry of the second. -/
def eqDict : List (Scalar × Value) → List (Scalar × Value) → Bool
  | [], _ => true
  | (k, v) :: d, e => (match Dict.get e k.key with
      | some w => eq v w
      | none => false) && eqDict d e

end

/-- `s in v`. -/
def contains : Value → Scalar → Except PyError Bool
  | .dict d, s => .ok (Dict.get d s.key).isSome
  | .list xs, s => .ok (xs.any (eq (.scalar s)))
  | .scalar (.str t), .str s => .ok (decide (s.toList <:+: t.toList))
  | .scalar _, _ => .error .typeError

/-- The position a Python index means in a sequence of the given length. -/
def seqIndex (length : Nat) : Scalar → Except PyError Nat
  | .int n => locate n
  | .bool b => locate (if b then 1 else 0)
  | _ => .error .typeError
where
  locate (n : Int) : Except PyError Nat :=
    if 0 ≤ n ∧ n < length then .ok n.toNat
    else if n < 0 ∧ 0 ≤ length + n then .ok (length + n).toNat
    else .error .indexError

/-- `v[s]`. -/
def getItem : Value → Scalar → Except PyError Value
  | .dict d, s => match Dict.get d s.key with
      | some v => .ok v
      | none => .error .keyError
  | .list xs, s => do
      let i ← seqIndex xs.length s
      .ok (xs.getD i null)
  | .scalar (.str t), s => do
      let i ← seqIndex t.toList.length s
      .ok (.str (String.ofList ((t.toList.drop i).take 1)))
  | .scalar _, _ => .error .typeError

/-! ### Well-formed values: every mapping has distinct keys -/

mutual

/-- No mapping in the value has two entries for one key. -/
def WF : Value → Prop
  | .scalar _ => True
  | .list xs => WFList xs
  | .dict d => (Dict.keys d).Nodup ∧ WFDict d

def WFList : List Value → Prop
  | [] => True
  | x :: xs => WF x ∧ WFList xs

/-- The values of the entries are well formed. -/
def WFDict : List (Scalar × Value) → Prop
  | [] => True
  | (_, v) :: d => WF v ∧ WFDict d

end

@[simp] theorem wf_scalar (s : Scalar) : (Value.scalar s).WF := by simp [WF]

theorem wfList_iff {xs : List Value} : WFList xs ↔ ∀ x ∈ xs, x.WF := by
  induction xs with
  | nil => simp [WFList]
  | cons x xs ih => simp [WFList, ih]

theorem wfDict_iff {d : Dict Value} : WFDict d ↔ ∀ e ∈ d, e.2.WF := by
  induction d with
  | nil => simp [WFDict]
  | cons e d ih =>
    obtain ⟨k, v⟩ := e
    simp [WFDict, ih]

theorem wf_list_iff {xs : List Value} : (Value.list xs).WF ↔ ∀ x ∈ xs, x.WF := by
  rw [WF, wfList_iff]

theorem wf_dict_iff {d : Dict Value} :
    (Value.dict d).WF ↔ d.keys.Nodup ∧ ∀ e ∈ d, e.2.WF := by
  rw [WF, wfDict_iff]

theorem WF.field {v w : Value} {k : Key} (h : v.WF) (hk : v.field k = some w) : w.WF := by
  cases v with
  | dict d =>
    obtain ⟨i, _, hmem⟩ := Dict.mem_of_get hk
    exact (wf_dict_iff.mp h).2 _ hmem
  | _ => cases hk

theorem induction {P : Value → Prop} (scalar : ∀ s, P (.scalar s))
    (list : ∀ xs : List Value, (∀ x ∈ xs, P x) → P (.list xs))
    (dict : ∀ d : Dict Value, (∀ e ∈ d, P e.2) → P (.dict d)) : ∀ v, P v
  | .scalar s => scalar s
  | .list xs => list xs (allList xs)
  | .dict d => dict d (allDict d)
where
  allList : ∀ xs : List Value, ∀ x ∈ xs, P x
    | [] => by simp
    | x :: xs => List.forall_mem_cons.mpr ⟨induction scalar list dict x, allList xs⟩
  allDict : ∀ d : List (Scalar × Value), ∀ e ∈ d, P e.2
    | [] => by simp
    | (k, v) :: d => List.forall_mem_cons.mpr ⟨induction scalar list dict v, allDict d⟩

theorem eqDict_iff {d e : Dict Value} :
    eqDict d e = true ↔ ∀ p ∈ d, ∃ w, Dict.get e p.1.key = some w ∧ p.2.eq w = true := by
  induction d with
  | nil => simp [eqDict]
  | cons p d ih =>
    obtain ⟨k, v⟩ := p
    rw [eqDict, Bool.and_eq_true, ih, List.forall_mem_cons]
    refine and_congr ?_ Iff.rfl
    cases hw : Dict.get e k.key <;> simp

theorem eq_dict_iff {d e : Dict Value} (hd : d.keys.Nodup) :
    (Value.dict d).eq (.dict e) = true ↔ d.length = e.length ∧
      ∀ j v, Dict.get d j = some v → ∃ w, Dict.get e j = some w ∧ v.eq w = true := by
  rw [eq, Bool.and_eq_true, decide_eq_true_eq, eqDict_iff]
  refine and_congr Iff.rfl ⟨fun h j v hv => ?_, fun h p hp => h _ _ (Dict.get_of_mem hd hp)⟩
  obtain ⟨k, rfl, hmem⟩ := Dict.mem_of_get hv
  exact h _ hmem

theorem eqList_refl {xs : List Value} (h : ∀ x ∈ xs, x.eq x = true) : eqList xs xs = true := by
  induction xs with
  | nil => rfl
  | cons x xs ih =>
    obtain ⟨hx, hxs⟩ := List.forall_mem_cons.mp h
    rw [eqList, hx, ih hxs, Bool.and_true]

theorem eq_refl {v : Value} (h : v.WF) : v.eq v = true := by
  induction v using Value.induction with
  | scalar s => simp [eq]
  | list xs ih => exact eqList_refl fun x hx => ih x hx (wf_list_iff.mp h x hx)
  | dict d ih =>
    obtain ⟨hnd, hwf⟩ := wf_dict_iff.mp h
    refine (eq_dict_iff hnd).mpr ⟨rfl, fun j v hv => ⟨v, hv, ?_⟩⟩
    obtain ⟨k, _, hmem⟩ := Dict.mem_of_get hv
    exact ih _ hmem (hwf _ hmem)

end Value

/-! ## Text -/

/-- `str` of a scalar. -/
def Scalar.toStr : Scalar → String
  | .none => "None"
  | .bool b => if b then "True" else "False"
  | .int n => toString n
  | .float _ repr => repr
  | .str s => s

theorem Value.WF.path {v w : Value} {ks : List Key} (h : v.WF) (hk : v.path ks = some w) : w.WF := by
  induction ks generalizing v with
  | nil =>
    cases hk
    exact h
  | cons k ks ih =>
    rw [Value.path_cons, Option.bind_eq_some_iff] at hk
    obtain ⟨x, hx, hk⟩ := hk
    exact ih (h.field hx) hk

/-- A value as `yaml.safe_load` returns it. -/
abbrev Yaml := { v : Value // v.WF }

end Python
