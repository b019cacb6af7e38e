import RobotFramework.History
import RobotFramework.Orchestrator.Launch

/-!
# Removal markers

`remove: true` is a marker that only `merge_named_lists` interprets. Where there is no list to merge into,
`merge_config` copies the overlay's list, markers included. The items of one name are a stack: a removal
drops the last one, any other overlay item is merged into it (`foldl_applyMark`); so a marker stays unless
later items of its name take it away (`Settled`). A marker that is left comes from the list that the others
are merged into, or from an item without a name (`MarkedFrom`).
-/

namespace Orchestrator

open Python

/-! ## Marks -/

/-- What an item says under `remove`: `true`, something else, or nothing. -/
inductive Mark where
  | removal
  | other
  | unset
  deriving DecidableEq

def mark (v : Value) : Mark :=
  match v.field (.str "remove") with
  | none => .unset
  | some value => if value.isTrue then .removal else .other

/-- The marks of the items of a name. -/
def marks (n : Key) (values : List Value) : List Mark := (named n values).map mark

/-- What one overlay item does to the marks of the items of its name. -/
def applyMark (items : List Mark) (overlay : Mark) : List Mark :=
  if overlay = .removal then items.dropLast
  else match items.getLast? with
    | none => [overlay]
    | some old => items.dropLast ++ [if overlay = .unset then old else overlay]

/-- The overlay takes away a marker that has so many later items of its name: one of its items says
something under `remove`, after as many removals. -/
def TakesAway (later : Nat) (overlay : List Mark) : Prop :=
  ∃ before mark after, overlay = before ++ mark :: after ∧ mark ≠ .unset ∧
    later ≤ before.count .removal

/-- Every marker of the base is taken away by the overlay. -/
def Settled (base overlay : List Mark) : Prop :=
  ∀ below above, base = below ++ .removal :: above → TakesAway above.length overlay

theorem isRemove_iff {v : Value} : isRemove v = true ↔ mark v = .removal := by
  unfold isRemove mark
  cases v.field (.str "remove") with
  | none => simp [Value.isTrue]
  | some value => cases hvalue : value.isTrue <;> simp [hvalue]

theorem not_takesAway_nil (later : Nat) : ¬ TakesAway later [] := by
  rintro ⟨before, mark, after, hnil, -⟩
  exact absurd hnil (by simp)

theorem takesAway_cons {later : Nat} {first : Mark} {overlay : List Mark} :
    TakesAway later (first :: overlay) ↔
      (first ≠ .unset ∧ later = 0) ∨
        TakesAway (if first = .removal then later - 1 else later) overlay := by
  constructor
  · rintro ⟨before, mark, after, hsplit, hmark, hcount⟩
    cases before with
    | nil =>
      obtain ⟨rfl, -⟩ := List.cons.inj hsplit
      exact .inl ⟨hmark, Nat.le_zero.mp hcount⟩
    | cons head before =>
      obtain ⟨rfl, rfl⟩ := List.cons.inj hsplit
      refine .inr ⟨before, mark, after, rfl, hmark, ?_⟩
      rw [List.count_cons] at hcount
      by_cases hhead : first = .removal
      · simp only [hhead, beq_self_eq_true, if_true] at hcount ⊢
        omega
      · simpa [hhead] using hcount
  · rintro (⟨hfirst, rfl⟩ | ⟨before, mark, after, rfl, hmark, hcount⟩)
    · exact ⟨[], first, overlay, rfl, hfirst, Nat.zero_le _⟩
    · refine ⟨first :: before, mark, after, rfl, hmark, ?_⟩
      rw [List.count_cons]
      by_cases hfirst : first = .removal
      · simp only [hfirst, beq_self_eq_true, if_true] at hcount ⊢
        omega
      · simpa [hfirst] using hcount

theorem settled_nil {base : List Mark} : Settled base [] ↔ .removal ∉ base := by
  constructor
  · intro h hmem
    obtain ⟨below, above, rfl⟩ := List.append_of_mem hmem
    exact not_takesAway_nil _ (h below above rfl)
  · rintro h below above rfl
    exact absurd (by simp) h

theorem settled_of_not_mem {base overlay : List Mark} (h : .removal ∉ base) : Settled base overlay := by
  rintro below above rfl
  exact absurd (by simp) h

theorem settled_concat {init overlay : List Mark} {last : Mark} :
    Settled (init ++ [last]) overlay ↔ (last = .removal → TakesAway 0 overlay) ∧
      ∀ below above, init = below ++ .removal :: above → TakesAway (above.length + 1) overlay := by
  constructor
  · intro h
    constructor
    · rintro rfl
      exact h init [] rfl
    · rintro below above rfl
      have := h below (above ++ [last]) (by simp)
      rwa [List.length_append] at this
  · rintro ⟨hlast, hinit⟩ below above hsplit
    rcases History.split_concat hsplit with ⟨-, hmark, rfl⟩ | ⟨above, rfl, hrest⟩
    · exact hlast hmark.symm
    · rw [List.length_append]
      exact hinit below above hrest

theorem settled_cons {base overlay : List Mark} {first : Mark} :
    Settled (applyMark base first) overlay ↔ Settled base (first :: overlay) := by
  rcases List.eq_nil_or_concat' base with rfl | ⟨init, last, rfl⟩
  · refine iff_of_true (settled_of_not_mem ?_) (settled_of_not_mem List.not_mem_nil)
    by_cases hfirst : first = .removal <;> simp [applyMark, hfirst, Ne.symm]
  · rw [settled_concat]
    simp only [takesAway_cons]
    unfold applyMark
    cases first with
    | removal =>
      rw [if_pos rfl, List.dropLast_concat]
      simp [Settled]
    | other =>
      rw [if_neg (by decide), List.getLast?_concat, List.dropLast_concat]
      simp [settled_concat]
    | unset =>
      rw [if_neg (by decide), List.getLast?_concat, List.dropLast_concat]
      simp [settled_concat]

/-- The marks that are left: no marker, exactly if all of them are settled. -/
theorem foldl_applyMark {overlay : List Mark} : ∀ {base : List Mark},
    .removal ∉ overlay.foldl applyMark base ↔ Settled base overlay := by
  induction overlay with
  | nil => exact settled_nil.symm
  | cons first overlay ih =>
    intro base
    rw [List.foldl_cons, ih, settled_cons]

/-! ## The marks of a merged list -/

theorem not_namedListKey_remove : ¬ NamedListKey (some (.str "remove")) := by decide

theorem isTrue_merged {b x w : Value} (h : mergeConfig b x (some (.str "remove")) = .ok w) :
    w.isTrue = x.isTrue := by
  cases hx : x.isDict with
  | false =>
    rw [mergeConfig_replace hx not_namedListKey_remove] at h
    rw [Except.ok.inj h]
  | true =>
    obtain ⟨x, rfl⟩ := Value.isDict_iff.mp hx
    cases hb : b.isDict with
    | false =>
      rw [mergeConfig_of_not_dict hb] at h
      rw [← Except.ok.inj h]
    | true =>
      obtain ⟨b, rfl⟩ := Value.isDict_iff.mp hb
      rw [mergeConfig_dict, bind_ok] at h
      obtain ⟨m, -, h⟩ := h
      rw [← Except.ok.inj h]
      rfl

theorem mark_merged {old ov value : Value} (hwf : ov.WF) (hdict : ov.isDict = true)
    (h : mergeConfig old ov none = .ok value) :
    mark value = if mark ov = .unset then mark old else mark ov := by
  obtain ⟨-, hnone, hsome⟩ := mergeConfig_field hwf hdict h (.str "remove")
  unfold mark
  cases hx : ov.field (.str "remove") with
  | none =>
    rw [hnone hx]
    rfl
  | some x =>
    obtain ⟨w, hw, hfield⟩ := hsome x hx
    rw [hfield]
    dsimp only
    rw [isTrue_merged hw]
    by_cases htrue : x.isTrue = true <;> simp [htrue]

theorem marks_applyNamed {items r : List Value} {ov : Value} (hwf : ov.WF) (hdict : ov.isDict = true)
    (h : applyNamed items ov = .ok r) : r.map mark = applyMark (items.map mark) (mark ov) := by
  unfold applyNamed at h
  unfold applyMark
  by_cases hremove : isRemove ov = true
  · rw [if_pos hremove] at h
    rw [if_pos (isRemove_iff.mp hremove), ← Except.ok.inj h, List.map_dropLast]
  · rw [if_neg hremove] at h
    rw [if_neg fun hmark => hremove (isRemove_iff.mpr hmark), List.getLast?_map]
    cases hlast : items.getLast? with
    | none =>
      rw [hlast] at h
      rw [← Except.ok.inj h]
      rfl
    | some old =>
      rw [hlast] at h
      obtain ⟨value, hvalue, h⟩ := bind_ok.mp h
      rw [← Except.ok.inj h, List.map_append, List.map_dropLast, List.map_singleton,
        mark_merged hwf hdict hvalue]
      rfl

theorem marks_foldlM {n : Key} {ovs : List Value} (hwf : ∀ v ∈ ovs, v.WF)
    (hname : ∀ v ∈ ovs, itemName v = some n) : ∀ {items r : List Value},
    ovs.foldlM applyNamed items = .ok r → r.map mark = (ovs.map mark).foldl applyMark (items.map mark) := by
  induction ovs with
  | nil =>
    intro items r h
    obtain rfl := Except.ok.inj h
    rfl
  | cons ov ovs ih =>
    obtain ⟨hov, hovs⟩ := List.forall_mem_cons.mp hwf
    obtain ⟨hn, hns⟩ := List.forall_mem_cons.mp hname
    obtain ⟨d, rfl⟩ := isDict_of_itemName hn
    intro items r h
    rw [List.foldlM_cons, bind_ok] at h
    obtain ⟨next, hnext, h⟩ := h
    rw [ih hovs hns h, marks_applyNamed hov rfl hnext]
    rfl

theorem marks_merged {n : Key} (hn : n ≠ .none) {base overlay r : List Value}
    (hwf : ∀ v ∈ overlay, v.WF) (h : mergeNamedLists base overlay = .ok r) :
    marks n r = (marks n overlay).foldl applyMark (marks n base) := by
  refine marks_foldlM (n := n) ?_ ?_ (mergeNamedLists_named hn hwf h)
  · exact fun v hv => hwf v (List.mem_filter.mp hv).1
  · exact fun v hv => of_decide_eq_true (List.mem_filter.mp hv).2

/-! ## Items that no name reaches -/

/-- No overlay item can name the item: it has no name, or an unhashable one. -/
def Loose (v : Value) : Prop := ∀ n, n ≠ .none → itemName v ≠ some n

theorem mergeNamedItems_forall {P : Value → Prop} {values : List Value} :
    ∀ {merged r : List Value} {indexes : Indexes},
      (∀ ov ∈ values, ov.field (.str "name") = none → P ov) →
      (∀ ov ∈ values, isRemove ov = false → P ov) →
      (∀ ov ∈ values, ∀ old value m, P old → HasName ov m → itemName old = some m →
        isRemove ov = false → mergeConfig old ov none = .ok value → itemName value = some m →
        P value) →
      (∀ v ∈ values, v.WF) → Indexed indexes (merged.map itemName) → (∀ v ∈ merged, P v) →
      mergeNamedItems merged indexes values = .ok r → ∀ v ∈ r, P v := by
  induction values with
  | nil =>
    intro merged r indexes _ _ _ _ _ hmerged h
    rw [mergeNamedItems] at h
    obtain rfl := Except.ok.inj h
    exact hmerged
  | cons ov values ih =>
    intro merged r indexes hnameless happend hmerge hwf hindexed hmerged h
    obtain ⟨hnamelessHere, hnameless⟩ := List.forall_mem_cons.mp hnameless
    obtain ⟨happendHere, happend⟩ := List.forall_mem_cons.mp happend
    obtain ⟨hmergeHere, hmerge⟩ := List.forall_mem_cons.mp hmerge
    obtain ⟨hov, hwf⟩ := List.forall_mem_cons.mp hwf
    obtain ⟨merged', indexes', hstep, hindexed', h⟩ := mergeNamedItems_step hov hindexed h
    refine ih hnameless happend hmerge hwf hindexed' ?_ h
    have hconcat (hx : P ov) : ∀ v ∈ merged ++ [ov], P v := by
      intro v hv
      rcases List.mem_append.mp hv with hv | hv
      · exact hmerged v hv
      · rwa [List.mem_singleton.mp hv]
    cases hstep with
    | nameless hfield => exact hconcat (hnamelessHere hfield)
    | unmatched _ _ _ => exact hmerged
    | append _ _ hremove => exact hconcat (happendHere hremove)
    | erase _ _ _ => exact fun v hv => hmerged v (List.mem_of_mem_eraseIdx hv)
    | merge hname hold hremove hvalue hkeeps =>
      intro v hv
      rcases List.mem_or_eq_of_mem_set hv with hv | rfl
      · exact hmerged v hv
      · exact hmergeHere _ v _ (hmerged _ hold.mem) hname hold.name hremove hvalue hkeeps

/-- No marker of the list is out of reach. -/
def LooseFree (values : List Value) : Prop := ∀ v ∈ values, isRemove v = true → ¬ Loose v

/-- No marker of the list is without a name: merged into another list, it would be appended. -/
def NamelessFree (values : List Value) : Prop :=
  ∀ v ∈ values, isRemove v = true → v.field (.str "name") ≠ none

/-- No item of the list has a null for a name. -/
def NullFree (values : List Value) : Prop := ∀ v ∈ values, v.field (.str "name") ≠ some .null

theorem loose_of_nameless {v : Value} (h : v.field (.str "name") = none) : Loose v :=
  fun _ hn => itemName_of_no_field h hn

/-- An overlay item with a name that is no removal: it brings no marker in. -/
theorem isRemove_merged {old ov value nameValue : Value} (hwf : ov.WF)
    (hfield : ov.field (.str "name") = some nameValue) (hremove : isRemove ov = false)
    (h : mergeConfig old ov none = .ok value) (hvalue : isRemove value = true) :
    isRemove old = true := by
  rw [isRemove_iff] at hvalue ⊢
  rw [mark_merged hwf (Value.isDict_of_field hfield) h] at hvalue
  split_ifs at hvalue with hunset
  · exact hvalue
  · rw [isRemove_iff.mpr hvalue] at hremove
    exact Bool.noConfusion hremove

section Merged
variable {base overlay r : List Value}

theorem looseFree_merged (hwf : ∀ v ∈ overlay, v.WF) (hbase : LooseFree base)
    (hoverlay : NamelessFree overlay) (h : mergeNamedLists base overlay = .ok r) : LooseFree r := by
  obtain ⟨indexes, hindexes, h⟩ := bind_ok.mp h
  refine mergeNamedItems_forall ?_ ?_ ?_ hwf (indexNames_indexed hindexes) hbase h
  · exact fun ov hov hfield hremove => absurd hfield (hoverlay ov hov hremove)
  · intro ov hov hnot hremove
    rw [hremove] at hnot
    exact Bool.noConfusion hnot
  · intro ov hov old value m hold ⟨nameValue, hfield, _⟩ hname hnot hvalue hkeeps hremove
    have holdRemove := isRemove_merged (hwf ov hov) hfield hnot hvalue hremove
    have holdReached : ∃ n, n ≠ .none ∧ itemName old = some n := by
      by_contra hnone
      exact hold holdRemove fun n hn hc => hnone ⟨n, hn, hc⟩
    obtain ⟨n, hn, holdName⟩ := holdReached
    obtain rfl := Option.some.inj (holdName.symm.trans hname)
    exact fun hloose => hloose n hn hkeeps

theorem namelessFree_merged (hwf : ∀ v ∈ overlay, v.WF) (hbase : NamelessFree base)
    (hoverlay : NamelessFree overlay) (h : mergeNamedLists base overlay = .ok r) :
    NamelessFree r := by
  obtain ⟨indexes, hindexes, h⟩ := bind_ok.mp h
  refine mergeNamedItems_forall ?_ ?_ ?_ hwf (indexNames_indexed hindexes) hbase h
  · exact fun ov hov hfield hremove => absurd hfield (hoverlay ov hov hremove)
  · intro ov hov hnot hremove
    rw [hremove] at hnot
    exact Bool.noConfusion hnot
  · intro ov hov old value m _ ⟨nameValue, hfield, _⟩ _ _ hvalue _ _
    obtain ⟨-, -, hsome⟩ :=
      mergeConfig_field (hwf ov hov) (Value.isDict_of_field hfield) hvalue (.str "name")
    obtain ⟨w, -, hw⟩ := hsome nameValue hfield
    rw [hw]
    exact Option.some_ne_none w

theorem nullFree_merged (hwf : ∀ v ∈ overlay, v.WF) (hbase : NullFree base)
    (hoverlay : NullFree overlay) (h : mergeNamedLists base overlay = .ok r) : NullFree r := by
  obtain ⟨indexes, hindexes, h⟩ := bind_ok.mp h
  refine mergeNamedItems_forall ?_ ?_ ?_ hwf (indexNames_indexed hindexes) hbase h
  · exact fun ov hov _ => hoverlay ov hov
  · exact fun ov hov _ => hoverlay ov hov
  · intro ov hov old value m _ ⟨nameValue, hfield, hhash⟩ _ _ hvalue _
    obtain ⟨-, -, hsome⟩ :=
      mergeConfig_field (hwf ov hov) (Value.isDict_of_field hfield) hvalue (.str "name")
    obtain ⟨w, hw, hname⟩ := hsome nameValue hfield
    cases nameValue with
    | scalar s =>
      rw [mergeConfig] at hw
      rw [hname, ← Except.ok.inj hw, ← hfield]
      exact hoverlay ov hov
    | _ => cases hhash

theorem HasName.ne_none {ov : Value} {m : Key} (h : HasName ov m)
    (hnull : ov.field (.str "name") ≠ some .null) : m ≠ .none := by
  obtain ⟨nameValue, hfield, hhash⟩ := h
  rintro rfl
  cases nameValue with
  | scalar s =>
    cases s with
    | none => exact hnull hfield
    | _ => cases hhash
  | _ => cases hhash

theorem MergeStep.loose {merged merged' : List Value} {ov : Value} (h : MergeStep merged ov merged')
    (hnull : ov.field (.str "name") ≠ some .null) :
    (∀ v ∈ merged, Loose v → v ∈ merged') ∧ (ov.field (.str "name") = none → ov ∈ merged') := by
  have hnamed {m : Key} (hname : HasName ov m) (hnone : ov.field (.str "name") = none) :
      ov ∈ merged' := by
    obtain ⟨nameValue, hfield, _⟩ := hname
    rw [hfield] at hnone
    exact absurd hnone (by simp)
  have hothers {m : Key} {i : Nat} {old v : Value} (hold : LastOfName merged m i old)
      (hname : HasName ov m) (hv : v ∈ merged) (hloose : Loose v) :
      v ∈ merged.take i ∨ v ∈ merged.drop (i + 1) := by
    rw [hold.split] at hv
    rcases List.mem_append.mp hv with hv | hv
    · exact .inl hv
    · rcases List.mem_cons.mp hv with rfl | hv
      · exact absurd hold.name (hloose m (hname.ne_none hnull))
      · exact .inr hv
  cases h with
  | nameless _ =>
    exact ⟨fun v hv _ => List.mem_append_left _ hv,
      fun _ => List.mem_append_right _ (List.mem_singleton_self ov)⟩
  | unmatched hname _ _ => exact ⟨fun v hv _ => hv, hnamed hname⟩
  | append hname _ _ => exact ⟨fun v hv _ => List.mem_append_left _ hv, hnamed hname⟩
  | erase hname hold _ =>
    refine ⟨fun v hv hloose => ?_, hnamed hname⟩
    rw [List.eraseIdx_eq_take_drop_succ]
    exact List.mem_append.mpr (hothers hold hname hv hloose)
  | merge hname hold _ _ _ =>
    refine ⟨fun v hv hloose => ?_, hnamed hname⟩
    rw [set_split _ hold.split]
    rcases hothers hold hname hv hloose with hv | hv
    · exact List.mem_append_left _ hv
    · exact List.mem_append_right _ (List.mem_cons_of_mem _ hv)

theorem mergeNamedItems_loose {values : List Value} (hnull : NullFree values) :
    ∀ {merged r : List Value} {indexes : Indexes}, (∀ v ∈ values, v.WF) →
      Indexed indexes (merged.map itemName) → mergeNamedItems merged indexes values = .ok r →
      (∀ v ∈ merged, Loose v → v ∈ r) ∧ ∀ v ∈ values, v.field (.str "name") = none → v ∈ r := by
  induction values with
  | nil =>
    intro merged r indexes _ _ h
    rw [mergeNamedItems] at h
    obtain rfl := Except.ok.inj h
    exact ⟨fun v hv _ => hv, fun v hv => absurd hv List.not_mem_nil⟩
  | cons ov values ih =>
    intro merged r indexes hwf hindexed h
    obtain ⟨hov, hwf⟩ := List.forall_mem_cons.mp hwf
    obtain ⟨hnullHere, hnull⟩ := List.forall_mem_cons.mp hnull
    obtain ⟨merged', indexes', hstep, hindexed', h⟩ := mergeNamedItems_step hov hindexed h
    obtain ⟨hkept, haddedHere⟩ := hstep.loose hnullHere
    obtain ⟨hstay, hadded⟩ := ih hnull hwf hindexed' h
    refine ⟨fun v hv hloose => hstay v (hkept v hv hloose) hloose, fun v hv hname => ?_⟩
    rcases List.mem_cons.mp hv with rfl | hv
    · exact hstay v (haddedHere hname) (loose_of_nameless hname)
    · exact hadded v hv hname

end Merged

/-! ## Several lists, one merged into the other -/

theorem markerFree_iff {values : List Value} :
    (∀ v ∈ values, isRemove v = false) ↔
      LooseFree values ∧ ∀ n, n ≠ .none → .removal ∉ marks n values := by
  constructor
  · intro h
    constructor
    · intro v hv hremove
      rw [h v hv] at hremove
      exact Bool.noConfusion hremove
    · intro n _ hmem
      obtain ⟨v, hv, hmark⟩ := List.mem_map.mp hmem
      have := h v (List.mem_filter.mp hv).1
      rw [isRemove_iff.mpr hmark] at this
      exact Bool.noConfusion this
  · rintro ⟨hloose, hmarks⟩ v hv
    apply Bool.of_not_eq_true
    intro hremove
    apply hloose v hv hremove
    intro n hn hname
    apply hmarks n hn
    exact List.mem_map.mpr ⟨v, List.mem_filter.mpr ⟨hv, decide_eq_true hname⟩, isRemove_iff.mp hremove⟩

section Layers
variable {rest : List (List Value)}

theorem marks_foldlM_lists {n : Key} (hn : n ≠ .none) (hwf : ∀ l ∈ rest, ∀ v ∈ l, v.WF) :
    ∀ {start r : List Value}, rest.foldlM mergeNamedLists start = .ok r →
      marks n r = (rest.flatMap (marks n)).foldl applyMark (marks n start) := by
  induction rest with
  | nil =>
    intro start r h
    obtain rfl := Except.ok.inj h
    rfl
  | cons l rest ih =>
    obtain ⟨hl, hrest⟩ := List.forall_mem_cons.mp hwf
    intro start r h
    rw [List.foldlM_cons, bind_ok] at h
    obtain ⟨next, hnext, h⟩ := h
    rw [ih hrest h, marks_merged hn hl hnext, List.flatMap_cons, List.foldl_append]

theorem foldlM_lists_keeps {P Q : List Value → Prop} (hwf : ∀ l ∈ rest, ∀ v ∈ l, v.WF)
    (hQ : ∀ l ∈ rest, Q l)
    (keeps : ∀ {base overlay r : List Value}, (∀ v ∈ overlay, v.WF) → P base → Q overlay →
      mergeNamedLists base overlay = .ok r → P r) :
    ∀ {start r : List Value}, P start → rest.foldlM mergeNamedLists start = .ok r → P r := by
  induction rest with
  | nil =>
    intro start r hstart h
    obtain rfl := Except.ok.inj h
    exact hstart
  | cons l rest ih =>
    obtain ⟨hl, hrest⟩ := List.forall_mem_cons.mp hwf
    obtain ⟨hQl, hQrest⟩ := List.forall_mem_cons.mp hQ
    intro start r hstart h
    rw [List.foldlM_cons, bind_ok] at h
    obtain ⟨next, hnext, h⟩ := h
    exact ih hrest hQrest (keeps hl hstart hQl hnext) h

theorem foldlM_lists_loose (hwf : ∀ l ∈ rest, ∀ v ∈ l, v.WF) (hnull : ∀ l ∈ rest, NullFree l) :
    ∀ {start r : List Value}, rest.foldlM mergeNamedLists start = .ok r →
      (∀ v ∈ start, Loose v → v ∈ r) ∧
        ∀ l ∈ rest, ∀ v ∈ l, v.field (.str "name") = none → v ∈ r := by
  induction rest with
  | nil =>
    intro start r h
    obtain rfl := Except.ok.inj h
    exact ⟨fun v hv _ => hv, fun l hl => absurd hl List.not_mem_nil⟩
  | cons l rest ih =>
    obtain ⟨hl, hrest⟩ := List.forall_mem_cons.mp hwf
    obtain ⟨hnullHere, hnull⟩ := List.forall_mem_cons.mp hnull
    intro start r h
    rw [List.foldlM_cons, bind_ok] at h
    obtain ⟨next, hnext, h⟩ := h
    obtain ⟨indexes, hindexes, hnext⟩ := bind_ok.mp hnext
    obtain ⟨hstart, hadded⟩ := mergeNamedItems_loose hnullHere hl (indexNames_indexed hindexes) hnext
    obtain ⟨hstay, hlater⟩ := ih hrest hnull h
    refine ⟨fun v hv hloose => hstay v (hstart v hv hloose) hloose, ?_⟩
    intro l' hl' v hv hname
    rcases List.mem_cons.mp hl' with rfl | hl'
    · exact hstay v (hadded v hv hname) (loose_of_nameless hname)
    · exact hlater l' hl' v hv hname

/-- The markers of a start list and the lists merged into it are gone in the end: none is out of reach,
and those under a name are settled. -/
def Spent (start : List Value) (rest : List (List Value)) : Prop :=
  LooseFree start ∧ (∀ l ∈ rest, NamelessFree l) ∧
    ∀ n, n ≠ .none → Settled (marks n start) (rest.flatMap (marks n))

variable {start r : List Value}

theorem markerFree_of_spent (hwf : ∀ l ∈ rest, ∀ v ∈ l, v.WF)
    (h : rest.foldlM mergeNamedLists start = .ok r) (hspent : Spent start rest) :
    ∀ v ∈ r, isRemove v = false := by
  obtain ⟨hloose, hnameless, hsettled⟩ := hspent
  rw [markerFree_iff]
  refine ⟨foldlM_lists_keeps hwf hnameless looseFree_merged hloose h, ?_⟩
  intro n hn
  rw [marks_foldlM_lists hn hwf h, foldl_applyMark]
  exact hsettled n hn

theorem spent_of_markerFree (hwf : ∀ l ∈ rest, ∀ v ∈ l, v.WF) (hnull : ∀ l ∈ rest, NullFree l)
    (h : rest.foldlM mergeNamedLists start = .ok r) (hfree : ∀ v ∈ r, isRemove v = false) :
    Spent start rest := by
  obtain ⟨hstay, hadded⟩ := foldlM_lists_loose hwf hnull h
  refine ⟨?_, ?_, ?_⟩
  · intro v hv hremove hloose
    rw [hfree v (hstay v hv hloose)] at hremove
    exact Bool.noConfusion hremove
  · intro l hl v hv hremove hname
    rw [hfree v (hadded l hl v hv hname)] at hremove
    exact Bool.noConfusion hremove
  · intro n hn
    rw [← foldl_applyMark, ← marks_foldlM_lists hn hwf h]
    exact (markerFree_iff.mp hfree).2 n hn

end Layers

/-! ## The `*` list and the host's list -/

/-- The marks of a name in a host's own list, after its layers have been merged. -/
def ownMarks (n : Key) : List (List Value) → List Mark
  | [] => []
  | start :: rest => (rest.flatMap (marks n)).foldl applyMark (marks n start)

/-- The markers in the layers of the `*` list and of the host's own list are gone in the end. The first
list there is gets the others merged into it; the host's own layers are merged before that. -/
def MarkersGone : List (List Value) → List (List Value) → Prop
  | [], [] => True
  | [], start :: rest => Spent start rest
  | start :: rest, own =>
    LooseFree start ∧ (∀ l ∈ rest ++ own, NamelessFree l) ∧
      ∀ n, n ≠ .none → Settled (marks n start) (rest.flatMap (marks n) ++ ownMarks n own)

section Own
variable {start ostart own r : List Value} {rest orest : List (List Value)}

theorem spent_of_markersGone (howf : ∀ l ∈ ostart :: orest, ∀ v ∈ l, v.WF)
    (hown : orest.foldlM mergeNamedLists ostart = .ok own)
    (h : MarkersGone (start :: rest) (ostart :: orest)) : Spent start (rest ++ [own]) := by
  obtain ⟨hloose, hnameless, hsettled⟩ := h
  have horest := (List.forall_mem_cons.mp howf).2
  refine ⟨hloose, ?_, ?_⟩
  · intro l hl
    rcases List.mem_append.mp hl with hl | hl
    · exact hnameless l (List.mem_append_left _ hl)
    · rw [List.mem_singleton.mp hl]
      refine foldlM_lists_keeps horest ?_ namelessFree_merged ?_ hown
      · exact fun l hl => hnameless l (List.mem_append_right _ (List.mem_cons_of_mem _ hl))
      · exact hnameless ostart (List.mem_append_right _ List.mem_cons_self)
  · intro n hn
    have hmarks : marks n own = ownMarks n (ostart :: orest) := marks_foldlM_lists hn horest hown
    rw [List.flatMap_append, List.flatMap_singleton, hmarks]
    exact hsettled n hn

theorem markersGone_of_spent (howf : ∀ l ∈ ostart :: orest, ∀ v ∈ l, v.WF)
    (hnull : ∀ l ∈ orest, NullFree l) (hown : orest.foldlM mergeNamedLists ostart = .ok own)
    (h : Spent start (rest ++ [own])) : MarkersGone (start :: rest) (ostart :: orest) := by
  obtain ⟨hloose, hnameless, hsettled⟩ := h
  have horest := (List.forall_mem_cons.mp howf).2
  obtain ⟨hstay, hadded⟩ := foldlM_lists_loose horest hnull hown
  have hownFree := hnameless own (List.mem_append_right _ (List.mem_singleton_self own))
  refine ⟨hloose, ?_, ?_⟩
  · intro l hl v hv hremove hname
    rcases List.mem_append.mp hl with hl | hl
    · exact hnameless l (List.mem_append_left _ hl) v hv hremove hname
    · refine hownFree v ?_ hremove hname
      rcases List.mem_cons.mp hl with rfl | hl
      · exact hstay v hv (loose_of_nameless hname)
      · exact hadded l hl v hv hname
  · intro n hn
    have hmarks : marks n own = ownMarks n (ostart :: orest) := marks_foldlM_lists hn horest hown
    have := hsettled n hn
    rwa [List.flatMap_append, List.flatMap_singleton, hmarks] at this

end Own

/-- What the layers of the `*` list and those of the host's own list are merged to. -/
def FinalList (r : List Value) : List (List Value) → List (List Value) → Prop
  | [], [] => r = []
  | start :: rest, [] => rest.foldlM mergeNamedLists start = .ok r
  | [], start :: rest => rest.foldlM mergeNamedLists start = .ok r
  | start :: rest, ostart :: orest => ∃ own, orest.foldlM mergeNamedLists ostart = .ok own ∧
      (rest ++ [own]).foldlM mergeNamedLists start = .ok r

section Final
variable {r : List Value} {wildcard own : List (List Value)}

theorem markersGone_nil {start : List Value} {rest : List (List Value)} :
    MarkersGone (start :: rest) [] ↔ Spent start rest := by
  unfold MarkersGone Spent ownMarks
  simp only [List.append_nil]

theorem foldlM_lists_wf {start r : List Value} {rest : List (List Value)}
    (hwf : ∀ l ∈ start :: rest, ∀ v ∈ l, v.WF) (h : rest.foldlM mergeNamedLists start = .ok r) :
    ∀ v ∈ r, v.WF := by
  obtain ⟨hstart, hrest⟩ := List.forall_mem_cons.mp hwf
  refine foldlM_lists_keeps (P := fun l => ∀ v ∈ l, v.WF) hrest hrest ?_ hstart h
  intro base overlay l hoverlay hbase _ hl
  obtain ⟨indexes, -, hl⟩ := bind_ok.mp hl
  exact mergeConfig_wf_all.2.1 base indexes overlay hbase hoverlay l hl

theorem lists_wf_concat {ostart list : List Value} {rest orest : List (List Value)}
    (hrest : ∀ l ∈ rest, ∀ v ∈ l, v.WF) (hown : ∀ l ∈ ostart :: orest, ∀ v ∈ l, v.WF)
    (hlist : orest.foldlM mergeNamedLists ostart = .ok list) :
    ∀ l ∈ rest ++ [list], ∀ v ∈ l, v.WF := by
  intro l hl
  rcases List.mem_append.mp hl with hl | hl
  · exact hrest l hl
  · rw [List.mem_singleton.mp hl]
    exact foldlM_lists_wf hown hlist

theorem markerFree_of_markersGone (hwildcard : ∀ l ∈ wildcard, ∀ v ∈ l, v.WF)
    (hown : ∀ l ∈ own, ∀ v ∈ l, v.WF) (h : FinalList r wildcard own)
    (hgone : MarkersGone wildcard own) : ∀ v ∈ r, isRemove v = false := by
  cases wildcard with
  | nil =>
    cases own with
    | nil =>
      obtain rfl : r = [] := h
      exact fun v hv => absurd hv List.not_mem_nil
    | cons start rest => exact markerFree_of_spent (List.forall_mem_cons.mp hown).2 h hgone
  | cons start rest =>
    have hrest := (List.forall_mem_cons.mp hwildcard).2
    cases own with
    | nil => exact markerFree_of_spent hrest h (markersGone_nil.mp hgone)
    | cons ostart orest =>
      obtain ⟨list, hlist, h⟩ := h
      exact markerFree_of_spent (lists_wf_concat hrest hown hlist) h
        (spent_of_markersGone hown hlist hgone)

theorem markersGone_of_markerFree (hwildcard : ∀ l ∈ wildcard, ∀ v ∈ l, v.WF)
    (hown : ∀ l ∈ own, ∀ v ∈ l, v.WF) (hwildcardNull : ∀ l ∈ wildcard, NullFree l)
    (hownNull : ∀ l ∈ own, NullFree l) (h : FinalList r wildcard own)
    (hfree : ∀ v ∈ r, isRemove v = false) : MarkersGone wildcard own := by
  cases wildcard with
  | nil =>
    cases own with
    | nil => trivial
    | cons start rest =>
      exact spent_of_markerFree (List.forall_mem_cons.mp hown).2 (List.forall_mem_cons.mp hownNull).2 h
        hfree
  | cons start rest =>
    have hrest := (List.forall_mem_cons.mp hwildcard).2
    have hrestNull := (List.forall_mem_cons.mp hwildcardNull).2
    cases own with
    | nil => exact markersGone_nil.mpr (spent_of_markerFree hrest hrestNull h hfree)
    | cons ostart orest =>
      obtain ⟨list, hlist, h⟩ := h
      obtain ⟨hostartNull, horestNull⟩ := List.forall_mem_cons.mp hownNull
      have horest := (List.forall_mem_cons.mp hown).2
      apply markersGone_of_spent hown horestNull hlist
      refine spent_of_markerFree (lists_wf_concat hrest hown hlist) ?_ h hfree
      intro l hl
      rcases List.mem_append.mp hl with hl | hl
      · exact hrestNull l hl
      · rw [List.mem_singleton.mp hl]
        exact foldlM_lists_keeps horest horestNull nullFree_merged hostartNull hlist

end Final

/-! ## Where a marked item comes from -/

/-- One of the lists has a marked item without a name: merged into another list, it is appended. -/
def NamelessMarked (lists : List (List Value)) : Prop :=
  ∃ l ∈ lists, ∃ u ∈ l, isRemove u = true ∧ u.field (.str "name") = none

/-- A marked item that is left of several lists: the first list has a marked item of its name, or it has
no name and one of the lists merged into the first has a marked item without a name. -/
def MarkedFrom (v : Value) : List (List Value) → Prop
  | [] => False
  | first :: others =>
    (∃ u ∈ first, isRemove u = true ∧ itemName u = itemName v) ∨
      itemName v = some .none ∧ NamelessMarked others

theorem namelessFree_or {l : List Value} {lists : List (List Value)} (hl : l ∈ lists) :
    NamelessFree l ∨ NamelessMarked lists := by
  by_cases hfree : NamelessFree l
  · exact .inl hfree
  · unfold NamelessFree at hfree
    push Not at hfree
    obtain ⟨u, hu, hremove, hname⟩ := hfree
    exact .inr ⟨l, hl, u, hu, hremove, hname⟩

theorem itemName_nameless {v : Value} (hremove : isRemove v = true)
    (hname : v.field (.str "name") = none) : itemName v = some .none := by
  cases v with
  | dict d =>
    rw [Value.field_dict] at hname
    simp [itemName, hname, Scalar.key]
  | _ => cases hremove

section Origin
variable {first r : List Value} {others : List (List Value)}

theorem markedFrom_merged {base overlay : List Value} (hwf : ∀ v ∈ overlay, v.WF)
    (hbase : ∀ v ∈ base, isRemove v = true → MarkedFrom v (first :: others))
    (hoverlay : NamelessFree overlay ∨ NamelessMarked others)
    (h : mergeNamedLists base overlay = .ok r) :
    ∀ v ∈ r, isRemove v = true → MarkedFrom v (first :: others) := by
  obtain ⟨indexes, hindexes, h⟩ := bind_ok.mp h
  refine mergeNamedItems_forall ?_ ?_ ?_ hwf (indexNames_indexed hindexes) hbase h
  · intro ov hov hfield hremove
    rcases hoverlay with hfree | hmarked
    · exact absurd hfield (hfree ov hov hremove)
    · exact .inr ⟨itemName_nameless hremove hfield, hmarked⟩
  · intro ov hov hnot hremove
    rw [hremove] at hnot
    exact Bool.noConfusion hnot
  · intro ov hov old value m hold ⟨nameValue, hfield, _⟩ hname hnot hvalue hkeeps hremove
    have hfrom := hold (isRemove_merged (hwf ov hov) hfield hnot hvalue hremove)
    unfold MarkedFrom at hfrom ⊢
    rwa [hkeeps, ← hname]

theorem markedFrom_foldlM {rest : List (List Value)} (hwf : ∀ l ∈ rest, ∀ v ∈ l, v.WF)
    (hrest : ∀ l ∈ rest, NamelessFree l ∨ NamelessMarked others)
    (h : rest.foldlM mergeNamedLists first = .ok r) :
    ∀ v ∈ r, isRemove v = true → MarkedFrom v (first :: others) :=
  foldlM_lists_keeps hwf hrest markedFrom_merged (fun v hv hremove => .inl ⟨v, hv, hremove, rfl⟩) h

theorem namelessFree_own {ostart own : List Value} {orest : List (List Value)}
    (howf : ∀ l ∈ orest, ∀ v ∈ l, v.WF) (hown : orest.foldlM mergeNamedLists ostart = .ok own)
    (hincl : ∀ l ∈ ostart :: orest, l ∈ others) : NamelessFree own ∨ NamelessMarked others := by
  by_cases hmarked : NamelessMarked others
  · exact .inr hmarked
  · have hfree : ∀ l ∈ ostart :: orest, NamelessFree l :=
      fun l hl => (namelessFree_or (hincl l hl)).resolve_right hmarked
    obtain ⟨hostart, horest⟩ := List.forall_mem_cons.mp hfree
    exact .inl (foldlM_lists_keeps howf horest namelessFree_merged hostart hown)

theorem markedFrom_finalList {wildcard own : List (List Value)}
    (hwildcard : ∀ l ∈ wildcard, ∀ v ∈ l, v.WF) (hown : ∀ l ∈ own, ∀ v ∈ l, v.WF)
    (h : FinalList r wildcard own) :
    ∀ v ∈ r, isRemove v = true → MarkedFrom v (wildcard ++ own) := by
  cases wildcard with
  | nil =>
    cases own with
    | nil =>
      obtain rfl : r = [] := h
      exact fun v hv => absurd hv List.not_mem_nil
    | cons start rest =>
      exact markedFrom_foldlM (List.forall_mem_cons.mp hown).2 (fun l hl => namelessFree_or hl) h
  | cons start rest =>
    have hrest := (List.forall_mem_cons.mp hwildcard).2
    cases own with
    | nil =>
      rw [List.append_nil]
      exact markedFrom_foldlM hrest (fun l hl => namelessFree_or hl) h
    | cons ostart orest =>
      obtain ⟨list, hlist, h⟩ := h
      have horest := (List.forall_mem_cons.mp hown).2
      refine markedFrom_foldlM (lists_wf_concat hrest hown hlist) ?_ h
      intro l hl
      rcases List.mem_append.mp hl with hl | hl
      · exact namelessFree_or (List.mem_append_left _ hl)
      · rw [List.mem_singleton.mp hl]
        exact namelessFree_own horest hlist fun l hl => List.mem_append_right _ hl

end Origin

/-! ## The layers of a deployment -/

/-- The lists among the values of a baseline and an overlay that are merged into one list: an overlay that
is no list takes the place of the baseline's. -/
def nodeLists (base top : Option Value) : List (List Value) :=
  match top, base with
  | none, some (.list bs) => [bs]
  | none, _ => []
  | some (.list os), some (.list bs) => [bs, os]
  | some (.list os), _ => [os]
  | some _, _ => []

/-- The `nodes` value of a merged deployment: the baseline's where the overlay has none. -/
def MergedNodes (base top merged : Option Value) : Prop :=
  (top = none → merged = base) ∧ ∀ x, top = some x → ∃ w,
    mergeConfig (base.getD .null) x (some (.str "nodes")) = .ok w ∧ merged = some w

theorem nodeLists_list {base top : Option Value} {l : List Value}
    (h : MergedNodes base top (some (.list l))) :
    ∃ start rest, nodeLists base top = start :: rest ∧ rest.foldlM mergeNamedLists start = .ok l := by
  obtain ⟨hnone, hsome⟩ := h
  cases top with
  | none =>
    rw [← hnone rfl]
    exact ⟨l, [], rfl, rfl⟩
  | some x =>
    obtain ⟨w, hw, hlist⟩ := hsome x rfl
    obtain rfl := Option.some.inj hlist
    cases x with
    | scalar s =>
      rw [mergeConfig] at hw
      cases hw
    | dict o =>
      have := mergeConfig_isDict hw
      cases this
    | list os =>
      obtain ⟨l, hl, ⟨bs, hbs, hmerge⟩ | ⟨hbs, rfl⟩⟩ := mergeConfig_nodes hw
      · cases hl
        have hbase : base = some (.list bs) := by
          cases base with
          | none => cases hbs
          | some b => rw [← hbs]; rfl
        refine ⟨bs, [os], by rw [hbase]; rfl, ?_⟩
        rw [List.foldlM_cons, hmerge]
        rfl
      · cases hl
        refine ⟨l, [], ?_, rfl⟩
        cases base with
        | none => rfl
        | some b =>
          cases b with
          | list bs => exact absurd rfl (hbs bs)
          | _ => rfl

theorem nodeLists_nil {base top merged : Option Value} (h : MergedNodes base top merged)
    (hnot : ∀ l, merged ≠ some (.list l)) : nodeLists base top = [] := by
  obtain ⟨hnone, hsome⟩ := h
  cases top with
  | none =>
    rw [← hnone rfl]
    cases merged with
    | none => rfl
    | some m =>
      cases m with
      | list l => exact absurd rfl (hnot l)
      | _ => rfl
  | some x =>
    obtain ⟨w, hw, rfl⟩ := hsome x rfl
    cases x with
    | list os =>
      obtain ⟨l, rfl, -⟩ := mergeConfig_nodes hw
      exact absurd rfl (hnot l)
    | _ => rfl

theorem notList_iff {base top merged : Option Value} (h : MergedNodes base top merged) :
    (∃ x, top.or base = some x ∧ ∀ l, x ≠ .list l) ↔ ∃ m, merged = some m ∧ ∀ l, m ≠ .list l := by
  obtain ⟨hnone, hsome⟩ := h
  cases top with
  | none => rw [Option.none_or, hnone rfl]
  | some x =>
    obtain ⟨w, hw, rfl⟩ := hsome x rfl
    simp only [Option.some_or, Option.some.injEq, exists_eq_left']
    have hlist : (∃ l, x = .list l) ↔ ∃ l, w = .list l := by
      constructor
      · rintro ⟨os, rfl⟩
        obtain ⟨l, rfl, -⟩ := mergeConfig_nodes hw
        exact ⟨l, rfl⟩
      · rintro ⟨l, rfl⟩
        cases x with
        | list os => exact ⟨os, rfl⟩
        | scalar s =>
          rw [mergeConfig] at hw
          cases hw
        | dict o =>
          have := mergeConfig_isDict hw
          cases this
    rw [← not_exists, ← not_exists, hlist]

theorem nodeLists_wf {base top : Option Value} (hbase : ∀ v, base = some v → v.WF)
    (htop : ∀ v, top = some v → v.WF) : ∀ l ∈ nodeLists base top, ∀ v ∈ l, v.WF := by
  intro l hl
  unfold nodeLists at hl
  have hlist {v : Option Value} {xs : List Value} (hwf : ∀ x, v = some x → x.WF)
      (hv : v = some (.list xs)) : ∀ x ∈ xs, x.WF := Value.wf_list_iff.mp (hwf _ hv)
  split at hl
  · rw [List.mem_singleton.mp hl]
    exact hlist hbase rfl
  · exact absurd hl List.not_mem_nil
  · rcases List.mem_pair.mp hl with rfl | rfl
    · exact hlist hbase rfl
    · exact hlist htop rfl
  · rw [List.mem_singleton.mp hl]
    exact hlist htop rfl
  · exact absurd hl List.not_mem_nil

/-- What is read in the last layer that has it. -/
def lastLayer (read : Value → Option Value) (baseline : Yaml) (overlay : Option Yaml) : Option Value :=
  (overlay.bind fun o => read o).or (read baseline)

section Deployment
variable {baseline : Yaml} {overlay : Option Yaml} {d nodes : Value} {host : String}

/-- A deployment that a node list is read from is a mapping, and so are its host assignments. -/
theorem open_of_activeNodes (h : activeNodes d host = .ok nodes) :
    ∀ p y, p <+: [Key.str "host_assignments"] → d.path p = some y → y.isDict = true := by
  unfold activeNodes at h
  obtain ⟨assignments, hassignments, h⟩ := bind_ok.mp h
  obtain ⟨config, hconfig, -⟩ := bind_ok.mp h
  unfold getHostAssignment at hconfig
  obtain ⟨w, hw, -⟩ := bind_ok.mp hconfig
  have hd := Value.isDict_of_get hassignments
  have hfield := Value.field_of_get hassignments
  have ha := Value.isDict_of_get hw
  intro p y hp hy
  rcases List.prefix_cons_iff.mp hp with rfl | ⟨t, rfl, ht⟩
  · rw [← Option.some.inj hy]
    exact hd
  · rw [List.prefix_nil.mp ht, Value.path_cons, hfield, Option.bind_eq_some_iff] at hy
    obtain ⟨a, rfl, hay⟩ := hy
    rw [← Option.some.inj hay]
    exact ha

theorem layers_merged (hd : overlayDeployment baseline overlay = .ok d)
    (hnodes : activeNodes d host = .ok nodes) (k : String) :
    ((hostEntry d k).getD (.dict [])).isDict =
      ((lastLayer (hostEntry · k) baseline overlay).getD (.dict [])).isDict ∧
    (((hostEntry d k).getD (.dict [])).isDict = true →
      MergedNodes (hostNodes baseline k) (overlay.bind fun o => hostNodes o k) (hostNodes d k)) := by
  cases overlay with
  | none =>
    obtain rfl := Except.ok.inj hd
    exact ⟨rfl, fun _ => ⟨fun _ => rfl, fun _ hx => nomatch hx⟩⟩
  | some o =>
    have hm : mergeConfig baseline o none = .ok d := hd
    have hopenMerged := open_of_activeNodes hnodes
    have hopen : ∀ p y, p <+: [Key.str "host_assignments"] → o.val.path p = some y →
        y.isDict = true := by
      intro p y hp hy
      rcases List.prefix_cons_iff.mp hp with rfl | ⟨t, rfl, ht⟩
      · rw [← Option.some.inj hy, ← mergeConfig_isDict hm]
        exact hopenMerged [] d List.nil_prefix rfl
      · obtain rfl := List.prefix_nil.mp ht
        obtain ⟨w, hw, hmerged⟩ := mergeConfig_path_some [] (.str "host_assignments") o.2 hm hy
        rw [← mergeConfig_isDict hw]
        exact hopenMerged _ w (List.prefix_refl _) hmerged
    have hentry := entry_isDict o.2 hm hopen k
    refine ⟨hentry, fun hdict => ⟨fun hx => ?_, fun x hx => hostNodes_merged_some o.2 hm hx⟩⟩
    refine hostNodes_merged_none o.2 hm hopen ?_ hx
    intro y hy
    rw [hentry, hy] at hdict
    exact hdict

theorem finalList_nodes {base top obase otop : Option Value}
    (hwildcard : MergedNodes base top (hostNodes d "*"))
    (hown : MergedNodes obase otop (hostNodes d host))
    (hlist : ∀ x, hostNodes d host = some x → ∃ l, x = .list l)
    (h : (hostNodes d host = none ∧ nodes = (hostNodes d "*").getD (.list [])) ∨
      ∃ x, hostNodes d host = some x ∧
        mergeConfig ((hostNodes d "*").getD .null) x (some (.str "nodes")) = .ok nodes) :
    FinalList nodes.elements (nodeLists base top) (nodeLists obase otop) := by
  by_cases hstar : ∃ l, hostNodes d "*" = some (.list l)
  · obtain ⟨l, hl⟩ := hstar
    rw [hl] at hwildcard h
    obtain ⟨start, rest, hlists, hmerged⟩ := nodeLists_list hwildcard
    rw [hlists]
    rcases h with ⟨hnone, rfl⟩ | ⟨x, hx, h⟩
    · rw [nodeLists_nil hown (by simp [hnone])]
      exact hmerged
    · obtain ⟨own, rfl⟩ := hlist x hx
      rw [hx] at hown
      obtain ⟨ostart, orest, holists, homerged⟩ := nodeLists_list hown
      rw [holists]
      rw [Option.getD_some, mergeConfig_list _ _ (.inl rfl), bind_ok] at h
      obtain ⟨r, hr, h⟩ := h
      obtain rfl := Except.ok.inj h
      refine ⟨own, homerged, ?_⟩
      rw [List.foldlM_append, hmerged, ok_bind, List.foldlM_cons, hr]
      rfl
  · rw [nodeLists_nil hwildcard fun l hl => hstar ⟨l, hl⟩]
    rcases h with ⟨hnone, rfl⟩ | ⟨x, hx, h⟩
    · rw [nodeLists_nil hown (by simp [hnone])]
      show ((hostNodes d "*").getD (.list [])).elements = []
      cases hs : hostNodes d "*" with
      | none => rfl
      | some s =>
        cases s with
        | list l => exact absurd ⟨l, hs⟩ hstar
        | _ => rfl
    · obtain ⟨own, rfl⟩ := hlist x hx
      rw [hx] at hown
      obtain ⟨ostart, orest, holists, homerged⟩ := nodeLists_list hown
      rw [holists]
      obtain ⟨l, rfl, ⟨bs, hbs, -⟩ | ⟨-, rfl⟩⟩ := mergeConfig_nodes h
      · refine absurd ⟨bs, ?_⟩ hstar
        cases hs : hostNodes d "*" with
        | none =>
          rw [hs] at hbs
          cases hbs
        | some s =>
          rw [hs] at hbs
          rw [← hbs]
          rfl
      · exact homerged

end Deployment

/-! ## Markers in the node list -/

/-- The host gets no list: an entry is no mapping, or the host's `nodes` value is no list. -/
def NoNodeList (baseline : Yaml) (overlay : Option Yaml) (host : String) : Prop :=
  (∃ k ∈ ["*", host],
    ((lastLayer (hostEntry · k) baseline overlay).getD (.dict [])).isDict = false) ∨
  ∃ x, lastLayer (hostNodes · host) baseline overlay = some x ∧ ∀ l, x ≠ .list l

/-- The lists of one entry: the baseline's, then the overlay's. -/
def entryLists (baseline : Yaml) (overlay : Option Yaml) (k : String) : List (List Value) :=
  nodeLists (hostNodes baseline k) (overlay.bind fun o => hostNodes o k)

/-- The lists that are merged for a host, in their order. -/
def mergedLists (baseline : Yaml) (overlay : Option Yaml) (host : String) : List (List Value) :=
  entryLists baseline overlay "*" ++ entryLists baseline overlay host

section Markers
variable (baseline : Yaml) (overlay : Option Yaml) (host : String) {d nodes : Value}

theorem entryLists_wf (k : String) : ∀ l ∈ entryLists baseline overlay k, ∀ v ∈ l, v.WF := by
  apply nodeLists_wf
  · exact fun v hv => baseline.2.path hv
  · intro v hv
    obtain ⟨o, -, ho⟩ := Option.bind_eq_some_iff.mp hv
    exact o.2.path ho

/-- A host gets no list, or what its lists are merged to. -/
theorem activeNodes_lists (hd : overlayDeployment baseline overlay = .ok d)
    (hnodes : activeNodes d host = .ok nodes) :
    (NoNodeList baseline overlay host ∧ nodes.elements = []) ∨
      ¬ NoNodeList baseline overlay host ∧
        FinalList nodes.elements (entryLists baseline overlay "*") (entryLists baseline overlay host) := by
  have hlayers := layers_merged hd hnodes
  rcases activeNodes_ok (overlayDeployment_wf hd) hnodes with
    ⟨hnot, rfl⟩ | ⟨hstarDict, hownDict, hcases⟩
  · refine .inl ⟨.inl ?_, rfl⟩
    rcases hnot with hnot | hnot
    · exact ⟨"*", List.mem_cons_self, by rw [← (hlayers "*").1]; exact hnot⟩
    · exact ⟨host, List.mem_cons_of_mem _ (List.mem_singleton_self host),
        by rw [← (hlayers host).1]; exact hnot⟩
  have hstar := (hlayers "*").2 hstarDict
  have hown := (hlayers host).2 hownDict
  by_cases hlist : ∀ x, hostNodes d host = some x → ∃ l, x = .list l
  · refine .inr ⟨?_, finalList_nodes hstar hown hlist hcases⟩
    rintro (⟨k, hk, hfalse⟩ | hother)
    · rw [← (hlayers k).1] at hfalse
      rcases List.mem_pair.mp hk with rfl | rfl
      · rw [hstarDict] at hfalse
        exact Bool.noConfusion hfalse
      · rw [hownDict] at hfalse
        exact Bool.noConfusion hfalse
    · obtain ⟨m, hm, hmlist⟩ := (notList_iff hown).mp hother
      obtain ⟨l, hl⟩ := hlist m hm
      exact absurd hl (hmlist l)
  · -- a `nodes` value that is no list takes the place of the `*` list
    push Not at hlist
    obtain ⟨x, hx, hxlist⟩ := hlist
    refine .inl ⟨.inr ((notList_iff hown).mpr ⟨x, hx, hxlist⟩), ?_⟩
    rcases hcases with ⟨hnone, -⟩ | ⟨y, hy, h⟩
    · rw [hx] at hnone
      cases hnone
    · obtain rfl := Option.some.inj (hx.symm.trans hy)
      cases x with
      | list l => exact absurd rfl (hxlist l)
      | scalar s =>
        rw [mergeConfig] at h
        rw [← Except.ok.inj h]
        rfl
      | dict o =>
        obtain ⟨m, rfl⟩ := Value.isDict_iff.mp (mergeConfig_isDict h)
        rfl

/-- **Merging brings no marker in**: a marked item of a host's node list has the name of a marked item of
the first of the host's lists, or it has no name and a later list has a marked item without one. -/
theorem marked_nodes_origin (hd : overlayDeployment baseline overlay = .ok d)
    (hnodes : activeNodes d host = .ok nodes) :
    ∀ v ∈ nodes.elements, isRemove v = true → MarkedFrom v (mergedLists baseline overlay host) := by
  rcases activeNodes_lists baseline overlay host hd hnodes with ⟨-, hempty⟩ | ⟨-, hfinal⟩
  · rw [hempty]
    exact fun v hv => absurd hv List.not_mem_nil
  · exact markedFrom_finalList (entryLists_wf baseline overlay "*") (entryLists_wf baseline overlay host)
      hfinal

end Markers

/-- The list for all computers has no marked item, so the scenario's marker is not in the result. -/
theorem removed_imu_origin : ∃ d nodes,
    overlayDeployment imuEverywhere (some removeImuScenario) = .ok d ∧
      activeNodes d "DevComputer2" = .ok nodes ∧ ∀ v ∈ nodes.elements, isRemove v = false := by
  refine ⟨_, _, rfl, rfl, fun v hv => Bool.of_not_eq_true fun hremove => ?_⟩
  have horigin := marked_nodes_origin imuEverywhere (some removeImuScenario) "DevComputer2" rfl rfl v hv
    hremove
  rcases horigin with ⟨u, hu, hmarked, -⟩ | ⟨-, l, hl, u, hu, -, hname⟩
  · rw [List.mem_singleton.mp hu] at hmarked
    cases hmarked
  · rw [List.mem_singleton.mp hl] at hu
    rw [List.mem_singleton.mp hu] at hname
    cases hname

/-- A deployment whose list for all computers has a marked item. -/
def markedImuEverywhere : Yaml :=
  ⟨.mapping [("host_assignments", .mapping [("*", .mapping [("nodes", .list [removeImu])])])],
    by simp [removeImu, Value.mapping, Value.wf_dict_iff, Value.wf_list_iff]⟩

/-- A marked item without a name. -/
def removeNameless : Value := .mapping [("remove", .scalar (.bool true))]

/-- A scenario that asks one computer to remove an item without a name. -/
def removeNamelessScenario : Yaml :=
  ⟨.mapping [("host_assignments", .mapping
    [("DevComputer2", .mapping [("nodes", .list [removeNameless])])])],
    by simp [removeNameless, Value.mapping, Value.wf_dict_iff, Value.wf_list_iff]⟩

/-- No removal is read in a list that others are merged into, nor in an item without a name. -/
theorem marked_items_active :
    (∃ d nodes, overlayDeployment markedImuEverywhere none = .ok d ∧
      activeNodes d "DevComputer2" = .ok nodes ∧ removeImu ∈ nodes.elements ∧
      isRemove removeImu = true) ∧
    ∃ d nodes, overlayDeployment imuEverywhere (some removeNamelessScenario) = .ok d ∧
      activeNodes d "DevComputer2" = .ok nodes ∧ removeNameless ∈ nodes.elements ∧
      isRemove removeNameless = true := by
  constructor
  · exact ⟨_, _, rfl, rfl, List.mem_singleton_self _, rfl⟩
  · exact ⟨_, _, rfl, rfl, List.mem_cons_of_mem _ (List.mem_singleton_self _), rfl⟩

/-- A deployment that has no node for the computer and none for all. -/
def imuElsewhere : Yaml :=
  ⟨.mapping [("host_assignments", .mapping
    [("DevComputer1", .mapping [("nodes", .list [.mapping [("name", .str "imu_node1")]])])])],
    by simp [Value.mapping, Value.wf_dict_iff, Value.wf_list_iff]⟩

/-- With no list to remove it from, the scenario's list comes first, and its marked item is a node of the
computer. -/
theorem marked_imu_active : ∃ d nodes,
    overlayDeployment imuElsewhere (some removeImuScenario) = .ok d ∧
      activeNodes d "DevComputer2" = .ok nodes ∧ removeImu ∈ nodes.elements ∧
      isRemove removeImu = true :=
  ⟨_, _, rfl, rfl, List.mem_singleton_self _, rfl⟩

/-! ## Where the markers are gone -/

section Gone
variable (baseline : Yaml) (overlay : Option Yaml) (host : String) {d nodes : Value}

/-- No marker reaches the node list of a host: it gets no list, or the markers in its lists are gone after
the merges. -/
def MarkersHandled : Prop :=
  NoNodeList baseline overlay host ∨
    MarkersGone (entryLists baseline overlay "*") (entryLists baseline overlay host)

/-- No item of the lists that are merged for a host has a null for a name. -/
def NoNullNames : Prop := ∀ l ∈ mergedLists baseline overlay host, NullFree l

/-- **Marked nodes are not launched** where the markers are handled; if no item's name is null, only
there. -/
theorem marked_nodes_gone (hd : overlayDeployment baseline overlay = .ok d)
    (hnodes : activeNodes d host = .ok nodes) :
    (MarkersHandled baseline overlay host → ∀ v ∈ nodes.elements, isRemove v = false) ∧
      (NoNullNames baseline overlay host → (∀ v ∈ nodes.elements, isRemove v = false) →
        MarkersHandled baseline overlay host) := by
  have hwildcard := entryLists_wf baseline overlay "*"
  have hown := entryLists_wf baseline overlay host
  rcases activeNodes_lists baseline overlay host hd hnodes with ⟨hno, hempty⟩ | ⟨hlist, hfinal⟩
  · rw [hempty]
    exact ⟨fun _ v hv => absurd hv List.not_mem_nil, fun _ _ => .inl hno⟩
  · constructor
    · rintro (hno | hgone)
      · exact absurd hno hlist
      · exact markerFree_of_markersGone hwildcard hown hfinal hgone
    · intro hnull hfree
      refine .inr (markersGone_of_markerFree hwildcard hown ?_ ?_ hfinal hfree)
      · exact fun l hl => hnull l (List.mem_append_left _ hl)
      · exact fun l hl => hnull l (List.mem_append_right _ hl)

end Gone

theorem removed_imu_unmarked : ∃ d nodes,
    overlayDeployment imuEverywhere (some removeImuScenario) = .ok d ∧
      activeNodes d "DevComputer2" = .ok nodes ∧ ∀ v ∈ nodes.elements, isRemove v = false := by
  refine ⟨_, _, rfl, rfl, ?_⟩
  apply (marked_nodes_gone imuEverywhere (some removeImuScenario) "DevComputer2" rfl rfl).1
  have himu : isRemove (.mapping [("name", .str "imu_node1")]) = false := rfl
  refine .inr ⟨?_, ?_, fun n _ => settled_of_not_mem ?_⟩
  · intro v hv hremove
    rw [List.mem_singleton.mp hv, himu] at hremove
    exact Bool.noConfusion hremove
  · intro l hl v hv _
    rw [List.mem_singleton.mp hl] at hv
    rw [List.mem_singleton.mp hv]
    exact Option.some_ne_none _
  · intro hmem
    obtain ⟨v, hv, hmark⟩ := List.mem_map.mp hmem
    rw [List.mem_singleton.mp (List.mem_filter.mp hv).1, ← isRemove_iff, himu] at hmark
    exact Bool.noConfusion hmark

end Orchestrator
