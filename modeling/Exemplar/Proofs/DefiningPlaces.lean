import Exemplar.Proofs.NestedStructs

/-! Where the definitions of a document stand. Each is what a list, an enum or a struct defines at a
place that is met in the document. -/
namespace Exemplar
open Json Inference

/-- What a list, an enum or a struct at a place defines under the name of the place. -/
inductive Place.Stands (options : Options) (p : Place) (e : Definition) : Prop
  | list {items : List Json} (value : p.value = .list items) (name : e.name = p.name)
      (fields : e.fields = [])
  | enum {entries : List (Scalar × Json)} {literals : Json} (value : p.value = .map entries)
      (isEnum : Markers.value? (some (.str options.enumKey)) entries = some literals)
      (name : e.name = p.name) (fields : e.fields = [])
  | struct {entries : List (Scalar × Json)} {c : Context} (struct : p.struct? options = some entries)
      (markers : c.markers = .ofOptions options) (name : e.name = p.name)
      (fields : e.fields = fieldsOf c entries)

theorem Place.Stands.name_eq {options : Options} {p : Place} {e : Definition}
    (h : p.Stands options e) : e.name = p.name := by
  cases h <;> assumption

namespace Inference

variable {options : Options} {c : Context} {s : AliasScope} {name : String} {e : Definition}
  {root : Place} {P : Scalar → Prop} {v : Json}

mutual
/-- A list type is defined by its list, and everything else by the map that is innermost in it. -/
theorem mem_ofItems_cases (c : Context) (s : AliasScope) (name : String) (depth : Nat) :
    (items : List Json) → e ∈ ofItems c s name depth items →
      (e.name = name ∧ e.fields = []) ∨ ∃ c' entries, c'.markers = c.markers ∧
        itemInnermost items = some (.map entries) ∧ e ∈ ofValue c' s (elementName name) (.map entries)
  | [], he => by
    rw [ofItems] at he
    obtain rfl := List.mem_singleton.mp he
    exact .inl ⟨rfl, rfl⟩
  | v :: _, he => by
    rw [ofItems] at he
    rw [itemInnermost]
    exact mem_ofElement_cases (c.inside (.int 0)) s name (depth + 1) v he
theorem mem_ofElement_cases (c : Context) (s : AliasScope) (name : String) (depth : Nat) :
    (v : Json) → e ∈ ofElement c s name depth v →
      (e.name = name ∧ e.fields = []) ∨ ∃ c' entries, c'.markers = c.markers ∧
        innermost v = some (.map entries) ∧ e ∈ ofValue c' s (elementName name) (.map entries)
  | .scalar x, he => by
    rw [ofElement] at he
    obtain rfl := List.mem_singleton.mp he
    exact .inl ⟨rfl, rfl⟩
  | .list items, he => by
    rw [ofElement] at he
    rw [innermost]
    exact mem_ofItems_cases c s name depth items he
  | .map entries, he => by
    rw [ofElement] at he
    rcases List.mem_append.mp he with he | he
    · refine .inr ⟨c.keeping (.map entries), entries, rfl, ?_, ?_⟩
      · rw [innermost]
        simp
      · rwa [ofValue]
    · obtain rfl := List.mem_singleton.mp he
      exact .inl ⟨rfl, rfl⟩
end

theorem mem_ofFields_cases {names : NameTable} {entries : List (Scalar × Json)}
    (h : e ∈ ofFields c s name names entries) : ∃ f ∈ entries, c.markers.isField f.1 = true ∧
      e ∈ ofValue (c.sample f.1 f.2) s (Name.member name ((names.name? f.1).getD "")) f.2 := by
  induction entries with
  | nil =>
    rw [ofFields] at h
    cases h
  | cons f rest ih =>
    obtain ⟨key, v⟩ := f
    rw [ofFields] at h
    rcases List.mem_append.mp h with h | h
    · split at h
      · next hfield => exact ⟨_, List.mem_cons_self, hfield, h⟩
      · cases h
    · obtain ⟨f, hf, hfield⟩ := ih h
      exact ⟨f, List.mem_cons_of_mem _ hf, hfield⟩

theorem mem_ofAliasEntries_cases {t : Aliases} {block : List (Scalar × Json)}
    (h : e ∈ (ofAliasEntries c (s.push t) name block).1) : ∃ pre a v post,
      block = pre ++ (a, v) :: post ∧
        e ∈ ofValue (c.inside a) (s.push (blockTable s name t (pre ++ [(a, v)])))
          (Name.member name (Identifier.ofText a.plainText)) v := by
  induction block generalizing t with
  | nil =>
    rw [ofAliasEntries] at h
    cases h
  | cons f rest ih =>
    obtain ⟨a, v⟩ := f
    rw [ofAliasEntries_cons] at h
    rcases List.mem_append.mp h with h | h
    · exact ⟨[], a, v, rest, rfl, h⟩
    · obtain ⟨pre, a', v', post, rfl, hmem⟩ := ih h
      exact ⟨(a, v) :: pre, a', v', post, rfl, hmem⟩

/-- Wherever a value is met, all that it defines stands at places that are met. -/
def Grounded (options : Options) (root : Place) (v : Json) : Prop :=
  ∀ c s name, c.markers = .ofOptions options → Place.Occurs options root ⟨s, name, v⟩ →
    ∀ e ∈ ofValue c s name v, ∃ p, Place.Occurs options root p ∧ p.Stands options e

theorem grounded_scalar (options : Options) (root : Place) (x : Scalar) :
    Grounded options root (.scalar x) := by
  intro c s name hm hoccurs e he
  rw [ofValue] at he
  cases he

theorem grounded_list {items : List Json}
    (hinner : ∀ entries, itemInnermost items = some (.map entries) →
      Grounded options root (.map entries)) :
    Grounded options root (.list items) := by
  intro c s name hm hoccurs e he
  rw [ofValue] at he
  rcases mem_ofItems_cases c s name 0 items he with ⟨hname, hfields⟩ | ⟨c', entries, hm', hfirst, he⟩
  · exact ⟨_, hoccurs, .list rfl hname hfields⟩
  · exact hinner entries hfirst c' s _ (hm'.trans hm) (.held hoccurs (.item hfirst)) e he

theorem grounded_map {entries : List (Scalar × Json)}
    (hparts : ∀ f ∈ entries, Grounded options root f.2)
    (hblock : ∀ f ∈ ownBlock options entries, Grounded options root f.2) :
    Grounded options root (.map entries) := by
  intro c s name hm hoccurs e he
  cases hisEnum : Markers.value? (some (.str options.enumKey)) entries with
  | some literals =>
    have hvalues : Markers.value? c.markers.enumKey entries = some literals := by rw [hm]; exact hisEnum
    rw [ofValue, assembleMap, hvalues] at he
    obtain rfl := List.mem_singleton.mp he
    exact ⟨_, hoccurs, .enum rfl hisEnum rfl rfl⟩
  | none =>
    cases hmapOf : Markers.value? (some (.str options.mapOfKey)) entries with
    | some v =>
      obtain ⟨key, hkey, hfound⟩ := Option.bind_eq_some_iff.mp hmapOf
      obtain ⟨hget, hfull⟩ := Option.filter_eq_some_iff.mp hfound
      obtain rfl := Option.some.inj hkey
      rw [ofValue_marked hm hisEnum hget (by simpa using hfull)] at he
      obtain ⟨k, hmem, -⟩ := Assoc.get?_mem hget
      have hheld := Place.Occurs.held hoccurs (.marked hisEnum hmapOf)
      exact hparts _ hmem (c.inside (.str options.mapOfKey)) s name hm hheld e he
    | none =>
      have hstruct : IsStruct (.ofOptions options) entries := ⟨hisEnum, hmapOf⟩
      have hplace : Place.struct? options ⟨s, name, .map entries⟩ = some entries :=
        Place.struct?_iff.mpr ⟨rfl, hstruct⟩
      have hkey : c.markers.aliasesKey = some (.str options.aliasesKey) :=
        congrArg Markers.aliasesKey hm
      rw [ofValue_struct (hm ▸ hstruct), scope_ofAliases hkey, ofAliases_eq hkey] at he
      rcases List.mem_append.mp he with he | he
      · rcases List.mem_append.mp he with he | he
        · obtain ⟨pre, a, v, post, hown, he⟩ := mem_ofAliasEntries_cases he
          have hmem : (a, v) ∈ ownBlock options entries := hown ▸ List.mem_append_right pre (.head post)
          cases hdefines : definesType (a, v) with
          | true =>
            exact hblock _ hmem ((c.inside (.str options.aliasesKey)).inside a) _ _ hm
              (.target hoccurs hplace hown hdefines) e he
          | false =>
            cases v with
            | scalar x =>
              rw [ofValue] at he
              cases he
            | list items => cases hdefines
            | map block => cases hdefines
        · obtain ⟨f, hf, hfield, he⟩ := mem_ofFields_cases he
          rw [hm] at hfield
          refine hparts f hf (c.sample f.1 f.2) _ _ hm ?_ e he
          have hheld := Place.Occurs.held hoccurs (.field hplace hf hfield)
          rw [Place.inside_struct hplace] at hheld
          rwa [fieldNames, hm]
      · obtain rfl := List.mem_singleton.mp he
        exact ⟨_, hoccurs, .struct hplace hm rfl rfl⟩

/-- All values in a tree are grounded: itself, what is innermost in its lists, and what stands under
its keys, as the entries of an alias block belong to the map around it. -/
theorem grounded_parts (hv : IsDocument P v) :
    Grounded options root v ∧
      (∀ entries, innermost v = some (.map entries) → Grounded options root (.map entries)) ∧
      ∀ entries, v = .map entries → ∀ f ∈ entries, Grounded options root f.2 := by
  induction hv with
  | scalar _ =>
    refine ⟨grounded_scalar options root _, fun entries h => ?_, nofun⟩
    rw [innermost] at h
    · cases h
    · simp
  | @list items _ ih =>
    have hinner : ∀ entries, itemInnermost items = some (.map entries) →
        Grounded options root (.map entries) := by
      intro entries h
      cases items with
      | nil =>
        rw [itemInnermost] at h
        cases h
      | cons v items =>
        rw [itemInnermost] at h
        exact (ih v List.mem_cons_self).2.1 entries h
    refine ⟨grounded_list hinner, fun entries h => ?_, nofun⟩
    rw [innermost] at h
    exact hinner entries h
  | @map entries _ _ _ ih =>
    have hown : Grounded options root (.map entries) := by
      refine grounded_map (fun f hf => (ih f hf).1) fun f hf => ?_
      rw [ownBlock] at hf
      split at hf
      · next block hfound =>
        obtain ⟨k, hmem, -⟩ := Assoc.get?_mem hfound
        exact (ih _ hmem).2.2 block rfl f hf
      · cases hf
    refine ⟨hown, fun entries' h => ?_, fun entries' h f hf => ?_⟩
    · rw [innermost] at h
      · cases h
        exact hown
      · simp
    · cases h
      exact (ih f hf).1

end Inference

/-- Every definition of a schema document stands at a place that is met in it. -/
theorem Document.exists_place {options : Options} {d : Document} {P : Scalar → Prop}
    {e : Definition} (hschema : d.plain = false) (hv : IsDocument P d.value)
    (he : e ∈ d.definitions options) : ∃ p, Place.Occurs options d.place p ∧ p.Stands options e := by
  have hsample : IsDocument P d.sample := (sound_place hschema hv).value
  rw [definitions, hschema] at he
  exact (grounded_parts hsample).1 _ .empty d.name rfl .root e he

end Exemplar
