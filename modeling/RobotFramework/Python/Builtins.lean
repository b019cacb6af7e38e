import RobotFramework.Python.Value

/-!
# Python builtins

Truth, iteration, `in`, `[]`, `**` and `str` on YAML values. The text of a container depends on which
characters Python prints as they are; that table is a parameter.
-/

namespace Python

/-! ## Updating a mapping -/

namespace Dict
variable {β : Type}

/-- `d.update(items)`, one assignment after the other. -/
def update (d items : Dict β) : Dict β := items.foldl (fun d e => d.set e.1 e.2) d

/-- A dictionary display or comprehension: a later entry replaces an earlier one of its key. -/
def ofItems (items : List (Scalar × β)) : Dict β := update [] items

theorem update_cons (d : Dict β) (e : Scalar × β) (items : Dict β) :
    update d (e :: items) = update (d.set e.1 e.2) items := rfl

theorem nodup_update {d : Dict β} (hd : d.keys.Nodup) (items : Dict β) :
    (update d items).keys.Nodup := by
  induction items generalizing d with
  | nil => exact hd
  | cons e items ih => exact ih (nodup_set hd e.1 e.2)

theorem nodup_ofItems (items : List (Scalar × β)) : (ofItems items).keys.Nodup :=
  nodup_update (d := []) List.nodup_nil items

theorem get_update {items : Dict β} (hnd : items.keys.Nodup) (d : Dict β) (j : Key) :
    get (update d items) j = (get items j).or (get d j) := by
  induction items generalizing d with
  | nil => rfl
  | cons e items ih =>
    obtain ⟨k, v⟩ := e
    rw [keys_cons, List.nodup_cons] at hnd
    rw [update_cons, ih hnd.2, get_cons, get_set]
    by_cases hk : k.key = j
    · have hlater : get items j = none := get_eq_none_iff.mpr (hk ▸ hnd.1)
      rw [if_pos hk, if_pos hk, hlater]
      rfl
    · rw [if_neg hk, if_neg hk]

theorem get_ofItems {items : Dict β} (hnd : items.keys.Nodup) (j : Key) :
    get (ofItems items) j = get items j := by
  rw [ofItems, get_update hnd, get_nil, Option.or_none]

theorem get_append (d e : Dict β) (j : Key) : get (d ++ e) j = (get d j).or (get e j) := by
  induction d with
  | nil => rfl
  | cons p d ih =>
    obtain ⟨k, v⟩ := p
    rw [List.cons_append, get_cons, get_cons, ih]
    split_ifs <;> rfl

theorem get_ofItems_reverse (items : Dict β) (j : Key) :
    get (ofItems items) j = get items.reverse j := by
  have hupdate : ∀ d : Dict β, get (update d items) j = (get items.reverse j).or (get d j) := by
    induction items with
    | nil => intro d; rfl
    | cons e items ih =>
      intro d
      obtain ⟨k, v⟩ := e
      rw [update_cons, ih, List.reverse_cons, get_append, Option.or_assoc, get_set, get_cons]
      split_ifs <;> rfl
  rw [ofItems, hupdate, get_nil, Option.or_none]

theorem get_map {γ : Type} {d : Dict β} {g : Scalar → Scalar} (f : β → γ)
    (hg : ∀ e ∈ d, (g e.1).key = e.1.key) (j : Key) :
    get (d.map fun e => (g e.1, f e.2)) j = (get d j).map f := by
  induction d with
  | nil => rfl
  | cons e d ih =>
    obtain ⟨k, v⟩ := e
    obtain ⟨hk, hd⟩ := List.forall_mem_cons.mp hg
    rw [List.map_cons, get_cons, get_cons, ih hd, hk]
    split_ifs <;> rfl

theorem keys_map {γ : Type} {d : Dict β} {g : Scalar → Scalar} (f : β → γ)
    (hg : ∀ e ∈ d, (g e.1).key = e.1.key) : keys (d.map fun e => (g e.1, f e.2)) = keys d := by
  rw [keys, keys, List.map_map]
  exact List.map_congr_left hg

end Dict

namespace Value

/-! ## Truth, iteration and membership -/

/-- `bool(v)`. -/
def truthy : Value → Bool
  | .scalar .none => false
  | .scalar (.bool b) => b
  | .scalar (.int n) => n ≠ 0
  | .scalar (.float q _) => q ≠ 0
  | .scalar (.str s) => s ≠ ""
  | .list xs => !xs.isEmpty
  | .dict d => !d.isEmpty

/-- What a `for` loop over the value runs through. -/
def iter : Value → Except PyError (List Value)
  | .list xs => .ok xs
  | .dict d => .ok (d.map fun e => .scalar e.1)
  | .scalar (.str s) => .ok (s.toList.map fun c => .str c.toString)
  | .scalar _ => .error .typeError

/-- `v in container`. -/
def isIn (container : Value) : Value → Except PyError Bool
  | .scalar s => container.contains s
  | v => match container with
      | .list xs => .ok (xs.any (eq v))
      | _ => .error .typeError

/-- `container[v]`. -/
def item (container : Value) : Value → Except PyError Value
  | .scalar s => container.getItem s
  | _ => .error .typeError

/-- `**v` in a dictionary display. -/
def unpack : Value → Except PyError (Dict Value)
  | .dict d => .ok d
  | _ => .error .typeError

/-- A value used where a path or a name has to be a string. -/
def asStr : Value → Except PyError String
  | .scalar (.str s) => .ok s
  | _ => .error .typeError

end Value

/-! ## Text -/

section Text
variable (isPrintable : Char → Bool)

/-- A number in lower-case hexadecimal, padded to a width. -/
def hexPadded (width n : Nat) : String :=
  let digits := Nat.toDigits 16 n
  String.ofList (List.replicate (width - digits.length) '0' ++ digits)

/-- One character of a quoted string. -/
def reprChar (quote c : Char) : String :=
  if c = quote ∨ c = '\\' then String.ofList ['\\', c]
  else if c = '\n' then "\\n"
  else if c = '\r' then "\\r"
  else if c = '\t' then "\\t"
  else if 0x20 ≤ c.toNat ∧ c.toNat < 0x7f then c.toString
  else if 0x7f < c.toNat ∧ isPrintable c then c.toString
  else if c.toNat < 0x100 then "\\x" ++ hexPadded 2 c.toNat
  else if c.toNat < 0x10000 then "\\u" ++ hexPadded 4 c.toNat
  else "\\U" ++ hexPadded 8 c.toNat

/-- `repr` of a string: single quotes, unless it has a single quote and no double quote. -/
def reprStr (s : String) : String :=
  let quote := if '\'' ∈ s.toList ∧ '"' ∉ s.toList then '"' else '\''
  quote.toString ++ String.join (s.toList.map (reprChar isPrintable quote)) ++ quote.toString

/-- `repr` of a scalar. -/
def Scalar.reprText : Scalar → String
  | .str s => reprStr isPrintable s
  | s => s.toStr

namespace Value

mutual

/-- `repr(v)`. -/
def reprText : Value → String
  | .scalar s => s.reprText isPrintable
  | .list xs => "[" ++ ", ".intercalate (reprTexts xs) ++ "]"
  | .dict d => "\x7b" ++ ", ".intercalate (reprEntries d) ++ "\x7d"

/-- `repr` of the elements of a list. -/
def reprTexts : List Value → List String
  | [] => []
  | x :: xs => reprText x :: reprTexts xs

/-- `key: value` for the entries of a mapping. -/
def reprEntries : List (Scalar × Value) → List String
  | [] => []
  | (k, v) :: d => (k.reprText isPrintable ++ ": " ++ reprText v) :: reprEntries d

end

/-- `str(v)`. -/
def toStr : Value → String
  | .scalar s => s.toStr
  | v => v.reprText isPrintable

@[simp] theorem toStr_scalar (s : Scalar) : toStr isPrintable (.scalar s) = s.toStr := rfl

end Value

end Text

end Python
