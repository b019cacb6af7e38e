import RobotFramework.OrderedMap
import RobotFramework.Orchestrator.Merge

/-!
# Named lists as ordered maps

`merge_named_lists` keeps an index of positions beside a list that shrinks and grows. What it computes is
simpler: the base is an ordered map from names to items, with items without a name in between, and the
overlay's items are applied to it one after the other (`mergeNamedLists_refines`).
-/

namespace Orchestrator

open Python

/-! ## The abstract merge -/

/-- The name of an item that has a string for one. -/
def stringName (v : Value) : Option String :=
  match v.field (.str "name") with
  | some (.scalar (.str s)) => some s
  | _ => none

/-- The index comprehension can hash the name of an item, if it has one. -/
def HashableName (v : Value) : Prop :=
  ∀ nameValue, v.field (.str "name") = some nameValue → ∃ s, nameValue = .scalar s

/-- A base list: no string occurs twice as a name. An item may have no name, or be no mapping. -/
structure NamedList where
  items : List Value
  hashable : ∀ v ∈ items, HashableName v
  distinct : (items.filterMap stringName).Nodup

/-- An overlay item: a mapping with a string for a name. -/
structure OverlayItem where
  value : Value
  wf : value.WF
  name : String
  named : value.field (.str "name") = some (.str name)

/-- A base list as a map from names to items. -/
def NamedList.view (l : NamedList) : OrderedMap String Value where
  entries := l.items.map fun v => (stringName v, v)
  distinct := by
    rw [List.filterMap_map]
    exact l.distinct

/-- One overlay item: a removal deletes its name; any other item is merged into the item of its name, or
appended. -/
def applyOverlay (m : OrderedMap String Value) (item : OverlayItem) :
    Except PyError (OrderedMap String Value) :=
  if isRemove item.value then .ok (m.delete item.name)
  else match m.get item.name with
    | some old => do
        let value ← mergeConfig old item.value none
        .ok (m.insert item.name value)
    | none => .ok (m.insert item.name item.value)

/-! ## The names of items -/

theorem itemName_str_iff {v : Value} {n : String} :
    itemName v = some (.str n) ↔ stringName v = some n := by
  cases v with
  | dict d =>
    simp only [stringName, itemName, Value.field_dict]
    generalize Dict.get d (.str "name") = name
    rcases name with _ | (s | _ | _)
    · simp [Scalar.key]
    · cases s <;> simp [Scalar.key]
    · simp
    · simp
  | _ => simp [stringName, itemName, Value.field]

theorem OverlayItem.stringName_value (item : OverlayItem) : stringName item.value = some item.name := by
  unfold stringName
  rw [item.named]

theorem hashableName_of_stringName {v : Value} {n : String} (h : stringName v = some n) :
    HashableName v := by
  intro nameValue hname
  unfold stringName at h
  rw [hname] at h
  cases nameValue with
  | scalar s => exact ⟨s, rfl⟩
  | _ => simp at h

theorem indexNamesFrom_ok {values : List Value} (h : ∀ v ∈ values, HashableName v) :
    ∀ (i : Nat) (indexes : Indexes), ∃ indexes', indexNamesFrom i indexes values = .ok indexes' := by
  induction values with
  | nil => exact fun _ indexes => ⟨indexes, by rw [indexNamesFrom]⟩
  | cons v values ih =>
    obtain ⟨hv, hvalues⟩ := List.forall_mem_cons.mp h
    intro i indexes
    cases v with
    | dict d =>
      obtain ⟨s, hs⟩ : ∃ s, (Dict.get d (.str "name")).getD .null = .scalar s := by
        cases hname : Dict.get d (.str "name") with
        | none => exact ⟨_, rfl⟩
        | some nameValue => exact hv nameValue hname
      obtain ⟨indexes', h'⟩ := ih hvalues (i + 1) ((s.key, i) :: indexes)
      refine ⟨indexes', ?_⟩
      rw [indexNamesFrom, hs]
      exact h'
    | _ =>
      rw [indexNamesFrom]
      · exact ih hvalues _ _
      · simp

theorem indexNames_ok {values : List Value} (h : ∀ v ∈ values, HashableName v) :
    ∃ indexes, indexNames values = .ok indexes :=
  indexNamesFrom_ok h 0 []

/-! ## The list behind the map -/

/-- The list of the loop shows the entries of the map. -/
structure Shows (merged : List Value) (m : OrderedMap String Value) : Prop where
  entries : m.entries = merged.map fun v => (stringName v, v)
  hashable : ∀ v ∈ merged, HashableName v

namespace Shows
variable {merged : List Value} {m : OrderedMap String Value} {n : String} {i : Nat} {old value : Value}

theorem elements (h : Shows merged m) : m.elements = merged := by
  unfold OrderedMap.elements
  rw [h.entries, List.map_map]
  exact List.map_id _

theorem split (h : Shows merged m) (hname : stringName old = some n)
    (hsplit : merged = merged.take i ++ old :: merged.drop (i + 1)) :
    m.entries = (merged.take i).map (fun v => (stringName v, v)) ++
      (some n, old) :: (merged.drop (i + 1)).map fun v => (stringName v, v) := by
  rw [h.entries]
  conv_lhs => rw [hsplit]
  rw [List.map_append, List.map_cons, hname]

theorem absent (h : Shows merged m) (hname : some (Key.str n) ∉ merged.map itemName) :
    some n ∉ m.entries.map Prod.fst := by
  rw [h.entries, List.map_map]
  intro hmem
  obtain ⟨v, hv, hvn⟩ := List.mem_map.mp hmem
  exact hname (List.mem_map.mpr ⟨v, hv, itemName_str_iff.mpr hvn⟩)

theorem insert_absent (h : Shows merged m) (hname : some (Key.str n) ∉ merged.map itemName)
    (hvalue : stringName value = some n) : Shows (merged ++ [value]) (m.insert n value) where
  entries := by
    rw [OrderedMap.insert_of_absent (h.absent hname), h.entries, List.map_append, List.map_singleton,
      hvalue]
  hashable v hv := by
    rcases List.mem_append.mp hv with hv | hv
    · exact h.hashable v hv
    · rw [List.mem_singleton.mp hv]
      exact hashableName_of_stringName hvalue

theorem insert_split (h : Shows merged m) (hname : stringName old = some n)
    (hvalue : stringName value = some n)
    (hsplit : merged = merged.take i ++ old :: merged.drop (i + 1)) :
    Shows (merged.set i value) (m.insert n value) where
  entries := by
    rw [OrderedMap.insert_of_split (h.split hname hsplit), set_split value hsplit, List.map_append,
      List.map_cons, hvalue]
  hashable v hv := by
    rcases List.mem_or_eq_of_mem_set hv with hv | rfl
    · exact h.hashable v hv
    · exact hashableName_of_stringName hvalue

theorem delete_split (h : Shows merged m) (hname : stringName old = some n)
    (hsplit : merged = merged.take i ++ old :: merged.drop (i + 1)) :
    Shows (merged.eraseIdx i) (m.delete n) where
  entries := by
    rw [OrderedMap.delete_of_split (h.split hname hsplit), List.eraseIdx_eq_take_drop_succ,
      List.map_append]
  hashable v hv := h.hashable v (List.mem_of_mem_eraseIdx hv)

end Shows

theorem shows_view (base : NamedList) : Shows base.items base.view := ⟨rfl, base.hashable⟩

/-! ## The refinement -/

/-- Both computations fail with the same error, or the list of one shows the map of the other. -/
def Agree : Except PyError (List Value) → Except PyError (OrderedMap String Value) → Prop
  | .ok merged, .ok m => Shows merged m
  | .error e, .error e' => e = e'
  | _, _ => False

theorem Agree.eq {x : Except PyError (List Value)} {y : Except PyError (OrderedMap String Value)}
    (h : Agree x y) : x = y.map OrderedMap.elements := by
  cases x with
  | ok merged =>
    cases y with
    | ok m => exact congrArg Except.ok (Shows.elements h).symm
    | error e => exact h.elim
  | error e =>
    cases y with
    | ok m => exact h.elim
    | error e' => exact congrArg Except.error h

theorem mergeNamedItems_refines (overlay : List OverlayItem) :
    ∀ {merged : List Value} {indexes : Indexes} {m : OrderedMap String Value},
      Indexed indexes (merged.map itemName) → Shows merged m →
      Agree (mergeNamedItems merged indexes (overlay.map OverlayItem.value))
        (overlay.foldlM applyOverlay m) := by
  induction overlay with
  | nil =>
    intro merged indexes m _ hshows
    rw [List.map_nil, mergeNamedItems, List.foldlM_nil]
    exact hshows
  | cons item overlay ih =>
    intro merged indexes m hindexed hshows
    have hfield : item.value.field (.str "name") = some (.scalar (.str item.name)) := item.named
    have hitem := item.stringName_value
    have hhash : (Value.scalar (.str item.name)).hash = .ok (.str item.name) := rfl
    rw [List.map_cons, mergeNamedItems, List.foldlM_cons, applyOverlay, hfield]
    dsimp only
    rw [hhash, ok_bind]
    cases hlookup : indexes.lookup (.str item.name) with
    | none =>
      have hname := hindexed.absent _ (by simp) hlookup
      have hkey := hshows.absent hname
      dsimp only
      by_cases hremove : isRemove item.value = true
      · rw [if_pos hremove, if_pos hremove, OrderedMap.delete_of_absent hkey, ok_bind]
        exact ih hindexed hshows
      · rw [if_neg hremove, if_neg hremove, OrderedMap.get_of_absent hkey, ok_bind]
        refine ih ?_ (hshows.insert_absent hname hitem)
        have hnext := hindexed.append_named (.str item.name)
        rw [List.map_append, List.map_singleton, itemName_str_iff.mpr hitem]
        rwa [List.length_map] at hnext
    | some i =>
      obtain ⟨old, hat, hold, hsplit, hlast⟩ := hindexed.split hlookup
      have holdName := itemName_str_iff.mp hold
      dsimp only
      rw [hat, ok_bind]
      by_cases hremove : isRemove item.value = true
      · have hnext := hshows.delete_split holdName hsplit
        obtain ⟨indexes', hindexes'⟩ := indexNames_ok hnext.hashable
        rw [if_pos hremove, if_pos hremove, hindexes', ok_bind, ok_bind]
        exact ih (indexNames_indexed hindexes') hnext
      · rw [if_neg hremove, if_neg hremove, OrderedMap.get_of_split (hshows.split holdName hsplit)]
        dsimp only
        cases hmerge : mergeConfig old item.value none with
        | error e => rfl
        | ok value =>
          have hvalue := mergeConfig_itemName item.wf hfield hhash hold hmerge
          have hnext := hshows.insert_split holdName (itemName_str_iff.mp hvalue) hsplit
          have hnames := LastOfName.map_set ⟨hold, hsplit, hlast⟩ hvalue
          rw [ok_bind, ok_bind, ok_bind]
          exact ih (hnames ▸ hindexed) hnext

/-! ## What follows for the list -/

/-- The overlay does not mention the item's name; so for every item without a string name. -/
def Unmentioned (overlay : List OverlayItem) (name : Option String) : Bool :=
  overlay.all fun item => decide (name ≠ some item.name)

theorem foldlM_applyOverlay_unmentioned (overlay : List OverlayItem) {p : Option String → Bool}
    (hp : ∀ item ∈ overlay, p (some item.name) = false) :
    ∀ {m r : OrderedMap String Value}, overlay.foldlM applyOverlay m = .ok r →
      r.entries.filter (fun e => p e.1) = m.entries.filter (fun e => p e.1) := by
  induction overlay with
  | nil =>
    intro m r h
    obtain rfl := Except.ok.inj h
    rfl
  | cons item overlay ih =>
    obtain ⟨hitem, hoverlay⟩ := List.forall_mem_cons.mp hp
    intro m r h
    rw [List.foldlM_cons, bind_ok] at h
    obtain ⟨next, hnext, h⟩ := h
    rw [ih hoverlay h]
    unfold applyOverlay at hnext
    split_ifs at hnext
    · obtain rfl := Except.ok.inj hnext
      apply OrderedMap.delete_others
      rintro e he hname
      rw [hname, hitem] at he
      exact Bool.noConfusion he
    · split at hnext
      · obtain ⟨value, -, hnext⟩ := bind_ok.mp hnext
        obtain rfl := Except.ok.inj hnext
        exact OrderedMap.insert_others hitem
      · obtain rfl := Except.ok.inj hnext
        exact OrderedMap.insert_others hitem

/-- **Named lists are ordered maps.** `merge_named_lists` computes the fold of the overlay's items over the
base as a map, failing where it fails. So the string names of the result are distinct, and every item that
the overlay does not mention, one without a name in particular, keeps its value and its place among the
others of that kind. -/
theorem mergeNamedLists_refines (base : NamedList) (overlay : List OverlayItem) :
    mergeNamedLists base.items (overlay.map OverlayItem.value) =
      (overlay.foldlM applyOverlay base.view).map OrderedMap.elements ∧
    ∀ r, mergeNamedLists base.items (overlay.map OverlayItem.value) = .ok r →
      (r.filterMap stringName).Nodup ∧
      r.filter (fun v => Unmentioned overlay (stringName v)) =
        base.items.filter (fun v => Unmentioned overlay (stringName v)) := by
  obtain ⟨indexes, hindexes⟩ := indexNames_ok base.hashable
  have hagree := mergeNamedItems_refines overlay (indexNames_indexed hindexes) (shows_view base)
  have hcode : mergeNamedLists base.items (overlay.map OverlayItem.value) =
      mergeNamedItems base.items indexes (overlay.map OverlayItem.value) := by
    rw [mergeNamedLists, hindexes, ok_bind]
  rw [hcode]
  refine ⟨hagree.eq, ?_⟩
  intro r hr
  rw [hr] at hagree
  cases hfold : overlay.foldlM applyOverlay base.view with
  | error e =>
    rw [hfold] at hagree
    exact hagree.elim
  | ok m =>
    rw [hfold] at hagree
    have hentries : m.entries = r.map fun v => (stringName v, v) := Shows.entries hagree
    have hitems : base.view.entries = base.items.map fun v => (stringName v, v) := rfl
    have hdistinct := m.distinct
    have hunmentioned : ∀ item ∈ overlay, Unmentioned overlay (some item.name) = false := by
      intro item hitem
      apply List.all_eq_false.mpr
      exact ⟨item, hitem, by simp⟩
    have hkept := foldlM_applyOverlay_unmentioned overlay hunmentioned hfold
    rw [hentries, hitems, List.filter_map, List.filter_map] at hkept
    rw [hentries, List.filterMap_map] at hdistinct
    refine ⟨hdistinct, ?_⟩
    have hvalues := congrArg (List.map Prod.snd) hkept
    rw [List.map_map, List.map_map] at hvalues
    have hid : (Prod.snd ∘ fun v => (stringName v, v)) = (id : Value → Value) := rfl
    rw [hid, List.map_id, List.map_id] at hvalues
    exact hvalues

/-! ## A list and its overlay -/

/-- Two nodes, and an item without a name between them. -/
def twoNodes : NamedList where
  items := [.mapping [("name", .str "imu_node1")], .mapping [("rate", .scalar (.int 10))],
    .mapping [("name", .str "servo_hat_node")]]
  hashable := by
    simp only [List.forall_mem_cons, List.not_mem_nil, false_imp_iff, implies_true, and_true]
    refine ⟨fun v h => ?_, fun v h => ?_, fun v h => ?_⟩
    · exact ⟨_, (Option.some.inj h).symm⟩
    · cases h
    · exact ⟨_, (Option.some.inj h).symm⟩
  distinct := by decide

/-- An overlay item with a name and one other entry. -/
def overlayItem (name key : String) (value : Scalar) (hkey : key ≠ "name") : OverlayItem where
  value := .mapping [("name", .str name), (key, .scalar value)]
  wf := by simp [Value.mapping, Value.wf_dict_iff, Scalar.key, hkey.symm]
  name := name
  named := rfl

/-- The first node is removed and the second one gets a package; the item between them stays. -/
theorem twoNodes_merged :
    let overlay := [overlayItem "imu_node1" "remove" (.bool true) (by decide),
      overlayItem "servo_hat_node" "package" (.str "tools") (by decide)]
    let merged : List Value := [.mapping [("rate", .scalar (.int 10))],
      .mapping [("name", .str "servo_hat_node"), ("package", .str "tools")]]
    mergeNamedLists twoNodes.items (overlay.map OverlayItem.value) = .ok merged ∧
      (merged.filterMap stringName).Nodup ∧
      merged.filter (fun v => Unmentioned overlay (stringName v)) =
        twoNodes.items.filter (fun v => Unmentioned overlay (stringName v)) := by
  intro overlay merged
  have hrefines := mergeNamedLists_refines twoNodes overlay
  have hmerged := hrefines.1.trans (show _ = Except.ok merged from rfl)
  exact ⟨hmerged, hrefines.2 merged hmerged⟩

end Orchestrator
