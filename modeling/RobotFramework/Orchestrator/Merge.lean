import RobotFramework.Python.Value

/-!
# Overlay merging

`merge_config` and `merge_named_lists` of `orchestrator.launch.py`. A mapping is merged key by key,
a `nodes` or `sensors` list item by item under its `name`, and anything else is replaced.

`mergeItems_get` says what a merged mapping holds under one key. `mergeNamedLists_named` says what a
merged list holds under one name: the items of that name go through `applyNamed`, one overlay item
after the other, whatever the other names do to the positions.
-/

namespace Orchestrator

open Python

/-! ## The code -/

/-- The index of a list of named items: the position of the last item of each name. -/
abbrev Indexes := List (Key × Nat)

/-- `{item.get('name'): index for index, item in enumerate(values) if isinstance(item, dict)}`, from
position `i` on. A later entry shadows an earlier one. -/
def indexNamesFrom (i : Nat) (indexes : Indexes) : List Value → Except PyError Indexes
  | [] => .ok indexes
  | .dict d :: values => do
      let name ← ((Dict.get d (.str "name")).getD .null).hash
      indexNamesFrom (i + 1) ((name, i) :: indexes) values
  | _ :: values => indexNamesFrom (i + 1) indexes values

/-- The index comprehension of `merge_named_lists`. -/
def indexNames (values : List Value) : Except PyError Indexes := indexNamesFrom 0 [] values

/-- `overlay_value.get('remove') is True`. -/
def isRemove (item : Value) : Bool :=
  ((item.field (.str "remove")).getD .null).isTrue

/-- `merged_values[i]`. -/
def itemAt (values : List Value) (i : Nat) : Except PyError Value :=
  match values[i]? with
  | some v => .ok v
  | none => .error .indexError

/-- `key in {'nodes', 'sensors'}`: the lists that are merged by name. -/
def NamedListKey (key : Option Key) : Prop :=
  key = some (.str "nodes") ∨ key = some (.str "sensors")

instance (key : Option Key) : Decidable (NamedListKey key) :=
  inferInstanceAs (Decidable (_ ∨ _))

mutual

/-- `merge_config`; `key` is the key the two values are stored under. -/
def mergeConfig (baseConfig overlayConfig : Value) (key : Option Key) : Except PyError Value :=
  match overlayConfig with
  | .dict items => match baseConfig with
      | .dict merged => do
          let merged ← mergeItems merged items
          .ok (.dict merged)
      | _ => .ok (.dict items)
  | .list overlayValues => match baseConfig with
      | .list baseValues =>
          if NamedListKey key then do
            let indexes ← indexNames baseValues
            let merged ← mergeNamedItems baseValues indexes overlayValues
            .ok (.list merged)
          else .ok (.list overlayValues)
      | _ => .ok (.list overlayValues)
  | .scalar s => .ok (.scalar s)

/-- The loop of `merge_config` over the overlay's items. -/
def mergeItems (merged : Dict Value) : List (Scalar × Value) → Except PyError (Dict Value)
  | [] => .ok merged
  | (configKey, overlayValue) :: items => do
      let value ← mergeConfig ((merged.get configKey.key).getD .null) overlayValue (some configKey.key)
      mergeItems (merged.set configKey value) items

/-- The loop of `merge_named_lists` over the overlay's values. -/
def mergeNamedItems (merged : List Value) (indexes : Indexes) :
    List Value → Except PyError (List Value)
  | [] => .ok merged
  | overlayValue :: values =>
      match overlayValue.field (.str "name") with
      | none => mergeNamedItems (merged ++ [overlayValue]) indexes values
      | some nameValue => do
          let itemName ← nameValue.hash
          match indexes.lookup itemName with
          | some i => do
              let old ← itemAt merged i
              if isRemove overlayValue then do
                let indexes ← indexNames (merged.eraseIdx i)
                mergeNamedItems (merged.eraseIdx i) indexes values
              else do
                let value ← mergeConfig old overlayValue none
                mergeNamedItems (merged.set i value) indexes values
          | none =>
              if isRemove overlayValue then mergeNamedItems merged indexes values
              else do
                let indexes := (itemName, merged.length) :: indexes
                mergeNamedItems (merged ++ [overlayValue]) indexes values

end

/-- `merge_named_lists`. -/
def mergeNamedLists (baseValues overlayValues : List Value) : Except PyError (List Value) := do
  let indexes ← indexNames baseValues
  mergeNamedItems baseValues indexes overlayValues

theorem mergeConfig_dict (b o : Dict Value) (key : Option Key) :
    mergeConfig (.dict b) (.dict o) key = (do let m ← mergeItems b o; .ok (.dict m)) := by
  rw [mergeConfig]

theorem mergeConfig_list (b o : List Value) {key : Option Key} (h : NamedListKey key) :
    mergeConfig (.list b) (.list o) key = (do let m ← mergeNamedLists b o; .ok (.list m)) := by
  rw [mergeConfig, if_pos h, mergeNamedLists]
  simp only [bind_assoc]

/-! ## One level of a mapping -/

/-- A merged mapping holds, under a key of the overlay, the merge of the two values, and the base's
value under every other key. -/
theorem mergeItems_get {items merged m : Dict Value} (hnd : items.keys.Nodup)
    (h : mergeItems merged items = .ok m) (j : Key) :
    (items.get j = none → m.get j = merged.get j) ∧
      ∀ v, items.get j = some v →
        ∃ w, mergeConfig ((merged.get j).getD .null) v (some j) = .ok w ∧ m.get j = some w := by
  induction items generalizing merged with
  | nil =>
    rw [mergeItems] at h
    cases h
    simp
  | cons e items ih =>
    obtain ⟨k, v⟩ := e
    rw [Dict.keys_cons, List.nodup_cons] at hnd
    rw [mergeItems, bind_ok] at h
    obtain ⟨w, hw, h⟩ := h
    obtain ⟨hnone, hsome⟩ := ih hnd.2 h
    rw [Dict.get_cons]
    by_cases hk : k.key = j
    · subst hk
      have hlater : Dict.get items k.key = none := Dict.get_eq_none_iff.mpr hnd.1
      rw [if_pos rfl]
      refine ⟨nofun, fun v' hv' => ?_⟩
      cases hv'
      exact ⟨w, hw, by rw [hnone hlater, Dict.get_set_self]⟩
    · rw [if_neg hk]
      rw [Dict.get_set_of_ne _ _ hk] at hnone hsome
      exact ⟨hnone, hsome⟩

theorem mergeConfig_dict_get {b o : Dict Value} {key : Option Key} {v : Value}
    (hnd : o.keys.Nodup) (h : mergeConfig (.dict b) (.dict o) key = .ok v) :
    ∃ m : Dict Value, v = .dict m ∧ ∀ j,
      (o.get j = none → m.get j = b.get j) ∧
        ∀ x, o.get j = some x →
          ∃ w, mergeConfig ((b.get j).getD .null) x (some j) = .ok w ∧ m.get j = some w := by
  rw [mergeConfig_dict, bind_ok] at h
  obtain ⟨m, hm, h⟩ := h
  cases h
  exact ⟨m, rfl, mergeItems_get hnd hm⟩

theorem mergeConfig_of_not_dict {b : Value} {o : Dict Value} {key : Option Key}
    (hb : b.isDict = false) : mergeConfig b (.dict o) key = .ok (.dict o) := by
  cases b with
  | dict b => cases hb
  | _ => rw [mergeConfig]; simp

theorem mergeConfig_null (o : Value) (key : Option Key) : mergeConfig .null o key = .ok o := by
  cases o <;> simp [mergeConfig]

theorem mergeConfig_replace {b o : Value} {key : Option Key} (ho : o.isDict = false)
    (hkey : ¬ NamedListKey key) : mergeConfig b o key = .ok o := by
  cases o with
  | dict o => cases ho
  | scalar s => rw [mergeConfig]
  | list os =>
    cases b with
    | list bs => rw [mergeConfig, if_neg hkey]
    | _ => rw [mergeConfig]; simp

theorem mergeConfig_isDict {b o m : Value} {key : Option Key} (h : mergeConfig b o key = .ok m) :
    m.isDict = o.isDict := by
  cases o with
  | scalar s =>
    rw [mergeConfig] at h
    rw [Except.ok.inj h]
  | dict o =>
    cases b with
    | dict b =>
      rw [mergeConfig_dict, bind_ok] at h
      obtain ⟨merged, -, h⟩ := h
      rw [← Except.ok.inj h]
      rfl
    | _ =>
      rw [mergeConfig_of_not_dict rfl] at h
      rw [Except.ok.inj h]
  | list os =>
    by_cases hkey : NamedListKey key
    · cases b with
      | list bs =>
        rw [mergeConfig_list _ _ hkey, bind_ok] at h
        obtain ⟨l, -, h⟩ := h
        rw [← Except.ok.inj h]
        rfl
      | _ =>
        rw [mergeConfig] at h
        · rw [Except.ok.inj h]
        · simp
    · rw [mergeConfig_replace rfl hkey] at h
      rw [Except.ok.inj h]

theorem mergeConfig_field {b o m : Value} {key : Option Key} (hwf : o.WF) (ho : o.isDict = true)
    (h : mergeConfig b o key = .ok m) (j : Key) :
    m.isDict = true ∧ (o.field j = none → m.field j = b.field j) ∧
      ∀ x, o.field j = some x →
        ∃ w, mergeConfig ((b.field j).getD .null) x (some j) = .ok w ∧ m.field j = some w := by
  obtain ⟨o, rfl⟩ := Value.isDict_iff.mp ho
  cases hb : b.isDict with
  | true =>
    obtain ⟨b, rfl⟩ := Value.isDict_iff.mp hb
    obtain ⟨m, rfl, hm⟩ := mergeConfig_dict_get (Value.wf_dict_iff.mp hwf).1 h
    exact ⟨rfl, hm j⟩
  | false =>
    rw [mergeConfig_of_not_dict hb] at h
    cases h
    rw [Value.field_of_not_dict hb]
    exact ⟨rfl, id, fun x hx => ⟨x, mergeConfig_null _ _, hx⟩⟩

theorem path_getD_null (v : Option Value) (ks : List Key) (k : Key) :
    (v.getD .null).path (ks ++ [k]) = v.bind (·.path (ks ++ [k])) := by
  cases v with
  | none => cases ks <;> rfl
  | some v => rfl

/-- A path the overlay reaches: the merge holds there the merge of the two values. -/
theorem mergeConfig_path_some (ks : List Key) (k : Key) : ∀ {b o m x : Value} {key : Option Key},
    o.WF → mergeConfig b o key = .ok m → o.path (ks ++ [k]) = some x →
    ∃ w, mergeConfig ((b.path (ks ++ [k])).getD .null) x (some k) = .ok w ∧
      m.path (ks ++ [k]) = some w := by
  induction ks with
  | nil =>
    intro b o m x key hwf h hx
    rw [List.nil_append, Value.path_cons, Option.bind_eq_some_iff] at hx
    obtain ⟨y, hy, hyx⟩ := hx
    cases hyx
    obtain ⟨_, _, hsome⟩ := mergeConfig_field hwf (Value.isDict_of_field hy) h k
    obtain ⟨w, hw, hm⟩ := hsome x hy
    refine ⟨w, ?_, by simp [Value.path_cons, hm]⟩
    cases hb : b.field k <;> simpa [Value.path_cons, hb] using hw
  | cons j ks ih =>
    intro b o m x key hwf h hx
    rw [List.cons_append, Value.path_cons, Option.bind_eq_some_iff] at hx
    obtain ⟨y, hy, hx⟩ := hx
    obtain ⟨_, _, hsome⟩ := mergeConfig_field hwf (Value.isDict_of_field hy) h j
    obtain ⟨z, hz, hm⟩ := hsome y hy
    obtain ⟨w, hw, hmw⟩ := ih (hwf.field hy) hz hx
    rw [path_getD_null] at hw
    exact ⟨w, hw, by rw [List.cons_append, Value.path_cons, hm]; exact hmw⟩

/-- A path the overlay does not mention, all of whose prefixes it leaves open: the merge holds the
base's value there. -/
theorem mergeConfig_path_none (ks : List Key) (k : Key) : ∀ {b o m : Value} {key : Option Key},
    o.WF → mergeConfig b o key = .ok m → o.path (ks ++ [k]) = none →
    (∀ p y, p <+: ks → o.path p = some y → y.isDict = true) →
    m.path (ks ++ [k]) = b.path (ks ++ [k]) := by
  induction ks with
  | nil =>
    intro b o m key hwf h hx hopen
    have hdict := hopen [] o List.nil_prefix rfl
    obtain ⟨_, hnone, _⟩ := mergeConfig_field hwf hdict h k
    have ho : o.field k = none := by simpa [Value.path_cons] using hx
    simp [Value.path_cons, hnone ho]
  | cons j ks ih =>
    intro b o m key hwf h hx hopen
    have hdict := hopen [] o List.nil_prefix rfl
    obtain ⟨_, hnone, hsome⟩ := mergeConfig_field hwf hdict h j
    rw [List.cons_append, Value.path_cons, Value.path_cons]
    cases hy : o.field j with
    | none => rw [hnone hy]
    | some y =>
      obtain ⟨z, hz, hm⟩ := hsome y hy
      rw [List.cons_append, Value.path_cons, hy] at hx
      have := ih (hwf.field hy) hz hx fun p w hp hw =>
        hopen (j :: p) w (List.cons_prefix_cons.mpr ⟨rfl, hp⟩) (by simp [Value.path_cons, hy, hw])
      rw [hm, Option.bind_some, this, path_getD_null]

/-! ## Merging keeps values well formed -/

theorem mergeConfig_wf_all :
    (∀ (b o : Value) (key : Option Key), b.WF → o.WF → ∀ m, mergeConfig b o key = .ok m → m.WF) ∧
    (∀ (merged : List Value) (indexes : Indexes) (values : List Value), (∀ x ∈ merged, x.WF) →
      (∀ x ∈ values, x.WF) → ∀ r, mergeNamedItems merged indexes values = .ok r → ∀ x ∈ r, x.WF) ∧
    (∀ (merged : Dict Value) (items : List (Scalar × Value)), (Value.dict merged).WF →
      (∀ e ∈ items, e.2.WF) → ∀ m, mergeItems merged items = .ok m → (Value.dict m).WF) := by
  apply mergeConfig.mutual_induct
  case case1 =>
    intro key items merged ih hb ho m h
    rw [mergeConfig_dict, bind_ok] at h
    obtain ⟨m', hm', h⟩ := h
    cases h
    exact ih hb (Value.wf_dict_iff.mp ho).2 m' hm'
  case case2 =>
    intro b key items hnot _ ho m h
    rw [mergeConfig] at h
    · cases h
      exact ho
    · exact hnot
  case case3 =>
    intro key overlayValues baseValues hkey ih hb ho m h
    rw [mergeConfig_list _ _ hkey, mergeNamedLists] at h
    simp only [bind_ok] at h
    obtain ⟨r, ⟨indexes, _, hr⟩, h⟩ := h
    cases h
    rw [Value.wf_list_iff] at hb ho ⊢
    exact ih indexes hb ho r hr
  case case4 =>
    intro key overlayValues baseValues hkey _ ho m h
    rw [mergeConfig, if_neg hkey] at h
    cases h
    exact ho
  case case5 =>
    intro b key overlayValues hnot _ ho m h
    rw [mergeConfig] at h
    · cases h
      exact ho
    · exact hnot
  case case6 =>
    intro b key s _ ho m h
    rw [mergeConfig] at h
    cases h
    exact ho
  case case7 =>
    intro merged indexes hmerged _ r h
    rw [mergeNamedItems] at h
    cases h
    exact hmerged
  case case8 =>
    intro merged indexes ov values hname ih hmerged hvalues r h
    rw [mergeNamedItems, hname] at h
    obtain ⟨hov, hvalues⟩ := List.forall_mem_cons.mp hvalues
    refine ih ?_ hvalues r h
    intro x hx
    rcases List.mem_append.mp hx with hx | hx
    · exact hmerged x hx
    · rw [List.mem_singleton.mp hx]
      exact hov
  case case9 =>
    intro merged indexes ov values nameValue hname ihErase ihMerge ihSet ihSkip ihAppend hmerged
      hvalues r h
    obtain ⟨hov, hvalues⟩ := List.forall_mem_cons.mp hvalues
    rw [mergeNamedItems, hname] at h
    simp only [bind_ok] at h
    obtain ⟨name, _, h⟩ := h
    cases hi : indexes.lookup name with
    | none =>
      rw [hi] at h
      dsimp only at h
      split_ifs at h
      · exact ihSkip hmerged hvalues r h
      · refine ihAppend name ?_ hvalues r h
        intro x hx
        rcases List.mem_append.mp hx with hx | hx
        · exact hmerged x hx
        · rw [List.mem_singleton.mp hx]
          exact hov
    | some i =>
      rw [hi] at h
      simp only [bind_ok] at h
      obtain ⟨old, hold, h⟩ := h
      split_ifs at h
      · obtain ⟨indexes', _, h⟩ := bind_ok.mp h
        exact ihErase i indexes' (fun x hx => hmerged x (List.mem_of_mem_eraseIdx hx)) hvalues r h
      · obtain ⟨value, hvalue, h⟩ := bind_ok.mp h
        have holdwf : old.WF := by
          rw [itemAt] at hold
          split at hold
          · rename_i v hv
            cases hold
            exact hmerged _ (List.mem_of_getElem? hv)
          · cases hold
        have hvaluewf := ihMerge old holdwf hov value hvalue
        refine ihSet i value ?_ hvalues r h
        intro x hx
        rcases List.mem_or_eq_of_mem_set hx with hx | hx
        · exact hmerged x hx
        · rw [hx]
          exact hvaluewf
  case case10 =>
    intro merged hmerged _ m h
    rw [mergeItems] at h
    cases h
    exact hmerged
  case case11 =>
    intro merged k ov items ihMerge ihSet hmerged hitems m h
    obtain ⟨hov, hitems⟩ := List.forall_mem_cons.mp hitems
    rw [mergeItems, bind_ok] at h
    obtain ⟨value, hvalue, h⟩ := h
    have hold : ((merged.get k.key).getD .null).WF := by
      cases hg : merged.get k.key with
      | none => simp
      | some v => exact hmerged.field hg
    have hvaluewf := ihMerge hold hov value hvalue
    refine ihSet value ?_ hitems m h
    rw [Value.wf_dict_iff] at hmerged ⊢
    refine ⟨Dict.nodup_set hmerged.1 k value, fun e he => ?_⟩
    rcases Dict.mem_set he with he | he
    · rw [he]
      exact hvaluewf
    · exact hmerged.2 e he

theorem mergeConfig_wf {b o m : Value} {key : Option Key} (hb : b.WF) (ho : o.WF)
    (h : mergeConfig b o key = .ok m) : m.WF :=
  mergeConfig_wf_all.1 b o key hb ho m h

/-! ## One name of a list -/

/-- The key of `item.get('name')`. -/
def itemName : Value → Option Key
  | .dict d => match (Dict.get d (.str "name")).getD .null with
      | .scalar s => some s.key
      | _ => none
  | _ => none

/-- The items of one name, in list order. -/
def named (n : Key) (values : List Value) : List Value := values.filter (itemName · = some n)

/-- What one overlay item does to the items of its name: a removal drops the last of them, any
other item is merged into the last one or becomes the only one. -/
def applyNamed (items : List Value) (overlayValue : Value) : Except PyError (List Value) :=
  if isRemove overlayValue then .ok items.dropLast
  else match items.getLast? with
    | none => .ok [overlayValue]
    | some old => do
        let value ← mergeConfig old overlayValue none
        .ok (items.dropLast ++ [value])

/-- The index against the names of the list: it points at items of the right name, and at the last
one where the name is not `None` (an appended item without a name is not indexed). -/
structure Indexed (indexes : Indexes) (names : List (Option Key)) : Prop where
  last : ∀ m i, indexes.lookup m = some i → names[i]? = some (some m) ∧
    (m ≠ .none → ∀ j, i < j → names[j]? ≠ some (some m))
  absent : ∀ m, m ≠ .none → indexes.lookup m = none → some m ∉ names

theorem itemName_of_field {v nameValue : Value} {k : Key}
    (h : v.field (.str "name") = some nameValue) (hk : nameValue.hash = .ok k) :
    itemName v = some k := by
  cases v with
  | dict d =>
    rw [Value.field_dict] at h
    cases nameValue with
    | scalar s =>
      cases hk
      simp [itemName, h]
    | _ => cases hk
  | _ => cases h

theorem itemName_of_no_field {v : Value} (h : v.field (.str "name") = none) {n : Key}
    (hn : n ≠ .none) : itemName v ≠ some n := by
  cases v with
  | dict d =>
    rw [Value.field_dict] at h
    simp [itemName, h, Scalar.key, hn.symm]
  | _ => simp [itemName]

theorem isDict_of_itemName {v : Value} {n : Key} (h : itemName v = some n) : ∃ d, v = .dict d := by
  cases v with
  | dict d => exact ⟨d, rfl⟩
  | _ => cases h

namespace Indexed
variable {indexes : Indexes} {names : List (Option Key)}

theorem nil : Indexed [] [] := ⟨by simp, by simp⟩

theorem append_named (h : Indexed indexes names) (k : Key) :
    Indexed ((k, names.length) :: indexes) (names ++ [some k]) := by
  constructor
  · intro m i hi
    rw [List.lookup_cons] at hi
    by_cases hm : m = k
    · subst hm
      simp only [beq_self_eq_true, Option.some.injEq] at hi
      subst hi
      refine ⟨by simp, fun _ j hj => ?_⟩
      rw [List.getElem?_eq_none (by simp; omega)]
      simp
    · simp only [beq_eq_false_iff_ne.mpr hm] at hi
      obtain ⟨hget, hlast⟩ := h.last m i hi
      have hlt : i < names.length := (List.getElem?_eq_some_iff.mp hget).1
      refine ⟨by rw [List.getElem?_append_left hlt, hget], fun hne j hj => ?_⟩
      rw [List.getElem?_append]
      split_ifs with hjlt
      · exact hlast hne j hj
      · intro hc
        have := List.mem_of_getElem? hc
        simp only [List.mem_singleton, Option.some.injEq] at this
        exact hm this
  · intro m hne hm
    rw [List.lookup_cons] at hm
    by_cases hmk : m = k
    · simp [hmk] at hm
    · simp only [beq_eq_false_iff_ne.mpr hmk] at hm
      simp [h.absent m hne hm, hmk]

theorem append_other (h : Indexed indexes names) {x : Option Key} (hx : ∀ n, n ≠ .none → x ≠ some n) :
    Indexed indexes (names ++ [x]) := by
  constructor
  · intro m i hi
    obtain ⟨hget, hlast⟩ := h.last m i hi
    have hlt : i < names.length := (List.getElem?_eq_some_iff.mp hget).1
    refine ⟨by rw [List.getElem?_append_left hlt, hget], fun hne j hj => ?_⟩
    rw [List.getElem?_append]
    split_ifs with hjlt
    · exact hlast hne j hj
    · intro hc
      have := List.mem_of_getElem? hc
      exact hx m hne (List.mem_singleton.mp this).symm
  · intro m hne hm
    have := h.absent m hne hm
    simp [this, (hx m hne).symm]

end Indexed

theorem indexNamesFrom_indexed {values : List Value} :
    ∀ {names : List (Option Key)} {indexes indexes' : Indexes}, Indexed indexes names →
      indexNamesFrom names.length indexes values = .ok indexes' →
      Indexed indexes' (names ++ values.map itemName) := by
  induction values with
  | nil =>
    intro names indexes indexes' h hi
    rw [indexNamesFrom] at hi
    cases hi
    simpa using h
  | cons v values ih =>
    intro names indexes indexes' h hi
    rw [List.map_cons, List.append_cons]
    cases v with
    | dict d =>
      rw [indexNamesFrom, bind_ok] at hi
      obtain ⟨k, hk, hi⟩ := hi
      have hname : itemName (.dict d) = some k := by
        cases hd : (Dict.get d (.str "name")).getD .null with
        | scalar s =>
          rw [hd] at hk
          cases hk
          simp [itemName, hd]
        | _ => rw [hd] at hk; cases hk
      rw [hname]
      exact ih (h.append_named k) (by simpa using hi)
    | _ =>
      rw [indexNamesFrom] at hi
      · exact ih (h.append_other (by simp [itemName])) (by simpa using hi)
      · simp

theorem indexNames_indexed {values : List Value} {indexes : Indexes}
    (h : indexNames values = .ok indexes) : Indexed indexes (values.map itemName) := by
  have := indexNamesFrom_indexed Indexed.nil h
  rwa [List.nil_append] at this

/-! ### The items of one name under the loop's list operations -/

theorem named_nil_of_forall {n : Key} {values : List Value} (h : ∀ v ∈ values, itemName v ≠ some n) :
    named n values = [] := by
  simpa [named, List.filter_eq_nil_iff] using h

theorem named_append (n : Key) (xs ys : List Value) :
    named n (xs ++ ys) = named n xs ++ named n ys := List.filter_append ..

theorem named_cons_self {n : Key} {v : Value} (h : itemName v = some n) (values : List Value) :
    named n (v :: values) = v :: named n values := by
  simp [named, h]

theorem named_cons_of_ne {n : Key} {v : Value} (h : itemName v ≠ some n) (values : List Value) :
    named n (v :: values) = named n values := by
  simp [named, h]

theorem Indexed.split {indexes : Indexes} {merged : List Value} {m : Key} {i : Nat}
    (h : Indexed indexes (merged.map itemName)) (hi : indexes.lookup m = some i) :
    ∃ old, itemAt merged i = .ok old ∧ itemName old = some m ∧
      merged = merged.take i ++ old :: merged.drop (i + 1) ∧
      (m ≠ .none → named m (merged.drop (i + 1)) = []) := by
  obtain ⟨hget, hlast⟩ := h.last m i hi
  rw [List.getElem?_map, Option.map_eq_some_iff] at hget
  obtain ⟨old, hold, hname⟩ := hget
  obtain ⟨hlt, hval⟩ := List.getElem?_eq_some_iff.mp hold
  refine ⟨old, by simp [itemAt, hold], hname, ?_, fun hne => named_nil_of_forall ?_⟩
  · rw [← hval, List.getElem_cons_drop, List.take_append_drop]
  · intro v hv hc
    obtain ⟨j, hj⟩ := List.mem_iff_getElem?.mp hv
    rw [List.getElem?_drop] at hj
    refine hlast hne (i + 1 + j) (by omega) ?_
    rw [List.getElem?_map, hj, Option.map_some, hc]

theorem named_eraseIdx_of_ne {n m : Key} (hne : n ≠ m) {merged : List Value} {i : Nat} {old : Value}
    (hname : itemName old = some m)
    (hsplit : merged = merged.take i ++ old :: merged.drop (i + 1)) :
    named n (merged.eraseIdx i) = named n merged := by
  have hold : itemName old ≠ some n := by
    rw [hname]
    exact fun h => hne (Option.some.inj h).symm
  rw [List.eraseIdx_eq_take_drop_succ, named_append]
  conv_rhs => rw [hsplit, named_append, named_cons_of_ne hold]

theorem named_eraseIdx_self {m : Key} {merged : List Value} {i : Nat} {old : Value}
    (hname : itemName old = some m) (hsplit : merged = merged.take i ++ old :: merged.drop (i + 1))
    (hlast : named m (merged.drop (i + 1)) = []) :
    named m (merged.eraseIdx i) = (named m merged).dropLast := by
  rw [List.eraseIdx_eq_take_drop_succ, named_append, hlast, List.append_nil]
  conv_rhs => rw [hsplit, named_append, named_cons_self hname, hlast, List.dropLast_concat]

theorem set_split {merged : List Value} {i : Nat} {old : Value} (value : Value)
    (hsplit : merged = merged.take i ++ old :: merged.drop (i + 1)) :
    merged.set i value = merged.take i ++ value :: merged.drop (i + 1) := by
  have hlt : i < merged.length := by
    by_contra hge
    have hlen := congrArg List.length hsplit
    simp at hlen
    omega
  rw [List.set_eq_take_append_cons_drop, if_pos hlt]

theorem named_set_of_ne {n m : Key} (hne : n ≠ m) {merged : List Value} {i : Nat}
    {old value : Value} (hname : itemName old = some m) (hvalue : itemName value = some m)
    (hsplit : merged = merged.take i ++ old :: merged.drop (i + 1)) :
    named n (merged.set i value) = named n merged := by
  have hm : ∀ v, itemName v = some m → itemName v ≠ some n := by
    intro v hv hc
    exact hne (Option.some.inj (hc.symm.trans hv))
  rw [set_split value hsplit, named_append, named_cons_of_ne (hm value hvalue)]
  conv_rhs => rw [hsplit, named_append, named_cons_of_ne (hm old hname)]

theorem named_set_self {m : Key} {merged : List Value} {i : Nat} {old value : Value}
    (hvalue : itemName value = some m)
    (hsplit : merged = merged.take i ++ old :: merged.drop (i + 1)) (hname : itemName old = some m)
    (hlast : named m (merged.drop (i + 1)) = []) :
    named m (merged.set i value) = (named m merged).dropLast ++ [value] := by
  rw [set_split value hsplit, named_append, named_cons_self hvalue, hlast]
  conv_rhs => rw [hsplit, named_append, named_cons_self hname, hlast, List.dropLast_concat]

theorem getLast?_named {m : Key} {merged : List Value} {i : Nat} {old : Value}
    (hname : itemName old = some m) (hsplit : merged = merged.take i ++ old :: merged.drop (i + 1))
    (hlast : named m (merged.drop (i + 1)) = []) : (named m merged).getLast? = some old := by
  rw [hsplit, named_append, named_cons_self hname, hlast, List.getLast?_concat]

theorem mergeConfig_itemName {old ov nameValue value : Value} {m : Key} (hov : ov.WF)
    (hfield : ov.field (.str "name") = some nameValue) (hhash : nameValue.hash = .ok m)
    (hold : itemName old = some m) (h : mergeConfig old ov none = .ok value) :
    itemName value = some m := by
  obtain ⟨b, rfl⟩ := isDict_of_itemName hold
  obtain ⟨o, rfl⟩ := isDict_of_itemName (itemName_of_field hfield hhash)
  obtain ⟨r, rfl, hr⟩ := mergeConfig_dict_get (Value.wf_dict_iff.mp hov).1 h
  obtain ⟨w, hw, hget⟩ := (hr (.str "name")).2 nameValue hfield
  cases nameValue with
  | scalar s =>
    rw [mergeConfig] at hw
    cases hw
    cases hhash
    simp [itemName, hget]
  | _ => cases hhash

/-! ### One item of the overlay -/

/-- The item has a name that can be looked up. -/
def HasName (ov : Value) (m : Key) : Prop :=
  ∃ nameValue, ov.field (.str "name") = some nameValue ∧ nameValue.hash = .ok m

theorem HasName.itemName {ov : Value} {m : Key} (h : HasName ov m) : itemName ov = some m := by
  obtain ⟨nameValue, hfield, hhash⟩ := h
  exact itemName_of_field hfield hhash

/-- The item at a position is the last one of a name. -/
structure LastOfName (merged : List Value) (m : Key) (i : Nat) (old : Value) : Prop where
  name : itemName old = some m
  split : merged = merged.take i ++ old :: merged.drop (i + 1)
  last : m ≠ .none → named m (merged.drop (i + 1)) = []

/-- What one overlay item does to the list. -/
inductive MergeStep (merged : List Value) (ov : Value) : List Value → Prop where
  /-- An item without a name is added. -/
  | nameless (hfield : ov.field (.str "name") = none) : MergeStep merged ov (merged ++ [ov])
  /-- A removal finds nothing. -/
  | unmatched {m : Key} (hname : HasName ov m) (habsent : m ≠ .none → named m merged = [])
      (hremove : isRemove ov = true) : MergeStep merged ov merged
  /-- The first item of a name is added. -/
  | append {m : Key} (hname : HasName ov m) (habsent : m ≠ .none → named m merged = [])
      (hremove : isRemove ov = false) : MergeStep merged ov (merged ++ [ov])
  /-- The last item of the name is removed. -/
  | erase {m : Key} {i : Nat} {old : Value} (hname : HasName ov m) (hold : LastOfName merged m i old)
      (hremove : isRemove ov = true) : MergeStep merged ov (merged.eraseIdx i)
  /-- The last item of the name is merged with it. -/
  | merge {m : Key} {i : Nat} {old value : Value} (hname : HasName ov m)
      (hold : LastOfName merged m i old) (hremove : isRemove ov = false)
      (hvalue : mergeConfig old ov none = .ok value) (hkeeps : itemName value = some m) :
      MergeStep merged ov (merged.set i value)

theorem LastOfName.mem {merged : List Value} {m : Key} {i : Nat} {old : Value}
    (h : LastOfName merged m i old) : old ∈ merged := by
  rw [h.split]
  exact List.mem_append_right _ List.mem_cons_self

theorem LastOfName.map_set {merged : List Value} {m : Key} {i : Nat} {old value : Value}
    (h : LastOfName merged m i old) (hvalue : itemName value = some m) :
    (merged.set i value).map itemName = merged.map itemName := by
  rw [set_split value h.split]
  conv_rhs => rw [h.split]
  rw [List.map_append, List.map_append, List.map_cons, List.map_cons, hvalue, h.name]

/-- The loop makes one step for each item of the overlay. -/
theorem mergeNamedItems_step {merged values r : List Value} {indexes : Indexes} {ov : Value}
    (hov : ov.WF) (hidx : Indexed indexes (merged.map itemName))
    (h : mergeNamedItems merged indexes (ov :: values) = .ok r) :
    ∃ merged' indexes', MergeStep merged ov merged' ∧ Indexed indexes' (merged'.map itemName) ∧
      mergeNamedItems merged' indexes' values = .ok r := by
  rw [mergeNamedItems] at h
  cases hfield : ov.field (.str "name") with
  | none =>
    rw [hfield] at h
    refine ⟨_, indexes, .nameless hfield, ?_, h⟩
    rw [List.map_append]
    exact hidx.append_other fun k hk => itemName_of_no_field hfield hk
  | some nameValue =>
    rw [hfield] at h
    obtain ⟨m, hhash, h⟩ := bind_ok.mp h
    have hname : HasName ov m := ⟨nameValue, hfield, hhash⟩
    cases hi : indexes.lookup m with
    | none =>
      rw [hi] at h
      dsimp only at h
      have habsent : m ≠ .none → named m merged = [] := by
        intro hm
        refine named_nil_of_forall fun v hv hc => ?_
        exact hidx.absent m hm hi (hc ▸ List.mem_map_of_mem hv)
      split_ifs at h with hremove
      · exact ⟨_, indexes, .unmatched hname habsent hremove, hidx, h⟩
      · refine ⟨_, _, .append hname habsent (Bool.of_not_eq_true hremove), ?_, h⟩
        simpa [hname.itemName] using hidx.append_named m
    | some i =>
      rw [hi] at h
      obtain ⟨old, hat, holdName, hsplit, hlast⟩ := hidx.split hi
      have hold : LastOfName merged m i old := ⟨holdName, hsplit, hlast⟩
      dsimp only at h
      rw [hat, ok_bind] at h
      split_ifs at h with hremove
      · obtain ⟨indexes', hidx', h⟩ := bind_ok.mp h
        exact ⟨_, indexes', .erase hname hold hremove, indexNames_indexed hidx', h⟩
      · obtain ⟨value, hvalue, h⟩ := bind_ok.mp h
        have hkeeps := mergeConfig_itemName hov hfield hhash holdName hvalue
        refine ⟨_, indexes, .merge hname hold (Bool.of_not_eq_true hremove) hvalue hkeeps, ?_, h⟩
        rw [hold.map_set hkeeps]
        exact hidx

/-! ### The loop, seen at one name -/

theorem MergeStep.named_of_ne {n : Key} {merged merged' : List Value} {ov : Value}
    (h : MergeStep merged ov merged') (hne : itemName ov ≠ some n) : named n merged' = named n merged := by
  have happend : named n (merged ++ [ov]) = named n merged := by
    rw [named_append, named_cons_of_ne hne]
    exact List.append_nil _
  have hother {m : Key} (hname : HasName ov m) : n ≠ m := by
    rintro rfl
    exact hne hname.itemName
  cases h with
  | nameless _ => exact happend
  | unmatched _ _ _ => rfl
  | append _ _ _ => exact happend
  | erase hname hold _ => exact named_eraseIdx_of_ne (hother hname) hold.name hold.split
  | merge hname hold _ _ hkeeps => exact named_set_of_ne (hother hname) hold.name hkeeps hold.split

theorem MergeStep.named_self {n : Key} (hn : n ≠ .none) {merged merged' : List Value} {ov : Value}
    (h : MergeStep merged ov merged') (hov : itemName ov = some n) :
    applyNamed (named n merged) ov = .ok (named n merged') := by
  have hsame {m : Key} (hname : HasName ov m) : m = n :=
    Option.some.inj (hname.itemName.symm.trans hov)
  unfold applyNamed
  cases h with
  | nameless hfield => exact absurd hov (itemName_of_no_field hfield hn)
  | unmatched hname habsent hremove =>
    obtain rfl := hsame hname
    rw [if_pos hremove, habsent hn]
    rfl
  | append hname habsent hremove =>
    obtain rfl := hsame hname
    rw [if_neg (by simp [hremove]), named_append, habsent hn, named_cons_self hov]
    rfl
  | erase hname hold hremove =>
    obtain rfl := hsame hname
    rw [if_pos hremove, named_eraseIdx_self hold.name hold.split (hold.last hn)]
  | merge hname hold hremove hvalue hkeeps =>
    obtain rfl := hsame hname
    rw [if_neg (by simp [hremove]), getLast?_named hold.name hold.split (hold.last hn),
      named_set_self hkeeps hold.split hold.name (hold.last hn)]
    simp only [hvalue]
    rfl

/-- One overlay item of another name, or without a name, leaves the items of a name as they are; an
overlay item of the name acts on them as `applyNamed`. -/
theorem mergeNamedItems_named {n : Key} (hn : n ≠ .none) {values : List Value} :
    ∀ {merged r : List Value} {indexes : Indexes}, (∀ v ∈ values, v.WF) →
      Indexed indexes (merged.map itemName) → mergeNamedItems merged indexes values = .ok r →
      (named n values).foldlM applyNamed (named n merged) = .ok (named n r) := by
  induction values with
  | nil =>
    intro merged r indexes _ _ h
    rw [mergeNamedItems] at h
    cases h
    rfl
  | cons ov values ih =>
    intro merged r indexes hwf hidx h
    obtain ⟨hov, hwf⟩ := List.forall_mem_cons.mp hwf
    obtain ⟨merged', indexes', hstep, hidx', h⟩ := mergeNamedItems_step hov hidx h
    have hrest := ih hwf hidx' h
    by_cases hname : itemName ov = some n
    · rw [named_cons_self hname, List.foldlM_cons, hstep.named_self hn hname]
      exact hrest
    · rw [named_cons_of_ne hname, ← hstep.named_of_ne hname]
      exact hrest

/-- **Merging by name, one name at a time.** -/
theorem mergeNamedLists_named {n : Key} (hn : n ≠ .none) {base overlay r : List Value}
    (hwf : ∀ v ∈ overlay, v.WF) (h : mergeNamedLists base overlay = .ok r) :
    (named n overlay).foldlM applyNamed (named n base) = .ok (named n r) := by
  obtain ⟨indexes, hidx, h⟩ := bind_ok.mp h
  exact mergeNamedItems_named hn hwf (indexNames_indexed hidx) h

end Orchestrator
