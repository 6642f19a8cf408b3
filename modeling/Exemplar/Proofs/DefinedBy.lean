import Exemplar.Proofs.DottedNames
import Exemplar.Schema.Catalogue

/-! What all definitions of a value have in common, whatever the markers and the aliases: they name
the source, lie within the name of the value, have the fields of a map in it, and nothing was said
against them yet. -/
namespace Exemplar

/-- What a tree consists of: itself, the items and the values of the entries of its parts. -/
inductive Json.Part (root : Json) : Json → Prop
  | self : Part root root
  | item {items : List Json} {x : Json} (h : Part root (.list items)) (hx : x ∈ items) : Part root x
  | entry {entries : List (Scalar × Json)} {e : Scalar × Json} (h : Part root (.map entries))
      (he : e ∈ entries) : Part root e.2

theorem Json.IsDocument.part {q : Scalar → Prop} {root x : Json} (hroot : IsDocument q root)
    (h : root.Part x) : IsDocument q x := by
  induction h with
  | self => exact hroot
  | item _ hx ih =>
    cases ih with
    | list parts => exact parts _ hx
  | entry _ he ih =>
    cases ih with
    | map _ _ parts => exact parts _ he

/-- The markers that are looked for in a document. Plain data has none. -/
def Document.markers (options : Options) (d : Document) : Markers :=
  if d.plain then .none else .ofOptions options

namespace Inference
open Name

/-- A definition as a source makes it of a value with a name. -/
structure MadeBy (source space : String) (d : Definition) : Prop where
  source : d.source = source
  inside : Inside space d.name
  edition : d.edition = 0
  errors : d.errors = []

/-- A definition as a source makes it of a part of a value with a name: the fields of a struct are
those of a map in the value, and the literals of an enum stand in one under the marker of enums. -/
structure MadeOf (m : Markers) (source space : String) (root : Json) (d : Definition) : Prop
    extends MadeBy source space d where
  fields : d.fields = [] ∨ ∃ c entries, Json.Part root (.map entries) ∧ d.fields = fieldsOf c entries
  values : d.kind = .enum → ∃ entries v, Json.Part root (.map entries) ∧
    Markers.value? m.enumKey entries = some v ∧ d.values = enumValues (literalsOf v)

variable {c : Context} {m : Markers} {scope : AliasScope} {name : String}
  {entries : List (Scalar × Json)} {root : Json}

theorem MadeOf.of_member {source space segment : String} {d : Definition}
    (h : MadeOf m source (member space segment) root d) : MadeOf m source space root d :=
  ⟨⟨h.source, .inr h.inside.of_member, h.edition, h.errors⟩, h.fields, h.values⟩

theorem madeOf_listDefinition (c : Context) (name : String) (depth : Nat) (sample root : Json) :
    ∀ d ∈ [listDefinition c name depth sample], MadeOf c.markers c.source name root d := by
  intro d hd
  rw [List.mem_singleton.mp hd]
  exact ⟨⟨rfl, .inl rfl, rfl, rfl⟩, .inl rfl, nofun⟩

theorem madeOf_append {source space : String} {ds more : List Definition}
    (hds : ∀ d ∈ ds, MadeOf m source space root d)
    (hmore : ∀ d ∈ more, MadeOf m source space root d) :
    ∀ d ∈ ds ++ more, MadeOf m source space root d := by
  intro d hd
  rcases List.mem_append.mp hd with hd | hd
  · exact hds d hd
  · exact hmore d hd

theorem madeOf_assembleMap {marked : List Definition}
    {aliases : AliasScope → List Definition × AliasScope}
    {fields : NameTable → AliasScope → List Definition} (hroot : root.Part (.map entries))
    (hmarked : ∀ d ∈ marked, MadeOf c.markers c.source name root d)
    (haliases : ∀ inside, ∀ d ∈ (aliases inside).1, MadeOf c.markers c.source name root d)
    (hfields : ∀ names inside, ∀ d ∈ fields names inside, MadeOf c.markers c.source name root d) :
    ∀ d ∈ assembleMap c scope name entries marked aliases fields,
      MadeOf c.markers c.source name root d := by
  intro d hd
  unfold assembleMap at hd
  split at hd
  · next v hv =>
    rw [List.mem_singleton.mp hd]
    exact ⟨⟨rfl, .inl rfl, rfl, rfl⟩, .inl rfl, fun _ => ⟨entries, v, hroot, hv, rfl⟩⟩
  · split at hd
    · exact hmarked d hd
    · rcases List.mem_append.mp hd with hd | hd
      · exact madeOf_append (haliases _) (hfields _ _) d hd
      · rw [List.mem_singleton.mp hd]
        exact ⟨⟨rfl, .inl rfl, rfl, rfl⟩, .inr ⟨c, entries, hroot, rfl⟩, nofun⟩

mutual
theorem madeOf_ofValue (c : Context) (scope : AliasScope) (name : String) :
    (v : Json) → root.Part v → ∀ d ∈ ofValue c scope name v, MadeOf c.markers c.source name root d
  | .scalar _, _ => by
    rw [ofValue]
    simp
  | .list items, hv => by
    rw [ofValue]
    exact madeOf_ofItems c scope name 0 items fun _ => hv.item
  | .map entries, hv => by
    have hparts : ∀ e ∈ entries, root.Part e.2 := fun _ => hv.entry
    rw [ofValue]
    exact madeOf_assembleMap hv (madeOf_ofMarked c scope name entries hparts)
      (fun inside => madeOf_ofAliases c inside name entries hparts)
      (fun names inside => madeOf_ofFields c inside name names entries hparts)
theorem madeOf_ofItems (c : Context) (scope : AliasScope) (name : String) (depth : Nat) :
    (items : List Json) → (∀ x ∈ items, root.Part x) →
      ∀ d ∈ ofItems c scope name depth items, MadeOf c.markers c.source name root d
  | [], _ => by
    rw [ofItems]
    exact madeOf_listDefinition c name depth _ root
  | first :: _, hparts => by
    rw [ofItems]
    exact madeOf_ofElement (c.inside (.int 0)) scope name (depth + 1) first
      (hparts first List.mem_cons_self)
theorem madeOf_ofElement (c : Context) (scope : AliasScope) (name : String) (depth : Nat) :
    (v : Json) → root.Part v →
      ∀ d ∈ ofElement c scope name depth v, MadeOf c.markers c.source name root d
  | .scalar s, _ => by
    rw [ofElement]
    exact madeOf_listDefinition c name depth _ root
  | .list items, hv => by
    rw [ofElement]
    exact madeOf_ofItems c scope name depth items fun _ => hv.item
  | .map entries, hv => by
    have hparts : ∀ e ∈ entries, root.Part e.2 := fun _ => hv.entry
    rw [ofElement]
    refine madeOf_append (fun d hd => ?_) (madeOf_listDefinition c name depth (.map entries) root)
    have helement : MadeOf c.markers c.source (elementName name) root d :=
      madeOf_assembleMap (c := c.keeping (.map entries)) hv
        (madeOf_ofMarked (c.keeping (.map entries)) scope (elementName name) entries hparts)
        (fun inside =>
          madeOf_ofAliases (c.keeping (.map entries)) inside (elementName name) entries hparts)
        (fun names inside => madeOf_ofFields (c.keeping (.map entries)) inside (elementName name)
          names entries hparts) d hd
    exact helement.of_member
theorem madeOf_ofMarked (c : Context) (scope : AliasScope) (name : String) :
    (entries : List (Scalar × Json)) → (∀ e ∈ entries, root.Part e.2) →
      ∀ d ∈ ofMarked c scope name entries, MadeOf c.markers c.source name root d
  | [], _ => by
    rw [ofMarked]
    simp
  | (key, v) :: rest, hparts => by
    obtain ⟨hv, hrest⟩ := List.forall_mem_cons.mp hparts
    rw [ofMarked]
    split
    · exact madeOf_ofValue (c.inside key) scope name v hv
    · exact madeOf_ofMarked c scope name rest hrest
theorem madeOf_ofFields (c : Context) (scope : AliasScope) (name : String) (names : NameTable) :
    (entries : List (Scalar × Json)) → (∀ e ∈ entries, root.Part e.2) →
      ∀ d ∈ ofFields c scope name names entries, MadeOf c.markers c.source name root d
  | [], _ => by
    rw [ofFields]
    simp
  | (key, v) :: rest, hparts => by
    obtain ⟨hv, hrest⟩ := List.forall_mem_cons.mp hparts
    rw [ofFields]
    refine madeOf_append ?_ (madeOf_ofFields c scope name names rest hrest)
    split
    · exact fun d hd => (madeOf_ofValue (c.sample key v) scope _ v hv d hd).of_member
    · simp
theorem madeOf_ofAliases (c : Context) (scope : AliasScope) (name : String) :
    (entries : List (Scalar × Json)) → (∀ e ∈ entries, root.Part e.2) →
      ∀ d ∈ (ofAliases c scope name entries).1, MadeOf c.markers c.source name root d
  | [], _ => by
    rw [ofAliases]
    simp
  | (key, v) :: rest, hparts => by
    obtain ⟨hv, hrest⟩ := List.forall_mem_cons.mp hparts
    rw [ofAliases]
    split
    · exact madeOf_ofAliasBlock (c.inside key) scope name v hv
    · exact madeOf_ofAliases c scope name rest hrest
theorem madeOf_ofAliasBlock (c : Context) (scope : AliasScope) (name : String) :
    (v : Json) → root.Part v →
      ∀ d ∈ (ofAliasBlock c scope name v).1, MadeOf c.markers c.source name root d
  | .scalar _, _ => by
    rw [ofAliasBlock]
    · simp
    · simp
  | .list _, _ => by
    rw [ofAliasBlock]
    · simp
    · simp
  | .map entries, hv => by
    rw [ofAliasBlock]
    exact madeOf_ofAliasEntries c scope name entries fun _ => hv.entry
theorem madeOf_ofAliasEntries (c : Context) (scope : AliasScope) (name : String) :
    (entries : List (Scalar × Json)) → (∀ e ∈ entries, root.Part e.2) →
      ∀ d ∈ (ofAliasEntries c scope name entries).1, MadeOf c.markers c.source name root d
  | [], _ => by
    rw [ofAliasEntries]
    simp
  | (a, .scalar s) :: rest, hparts => by
    rw [ofAliasEntries]
    exact madeOf_ofAliasEntries c _ name rest (List.forall_mem_cons.mp hparts).2
  | (a, .list items) :: rest, hparts => by
    obtain ⟨hv, hrest⟩ := List.forall_mem_cons.mp hparts
    rw [ofAliasEntries]
    · exact madeOf_append
        (fun d hd => (madeOf_ofValue (c.inside a) _ _ (.list items) hv d hd).of_member)
        (madeOf_ofAliasEntries c _ name rest hrest)
    · simp
  | (a, .map entries) :: rest, hparts => by
    obtain ⟨hv, hrest⟩ := List.forall_mem_cons.mp hparts
    rw [ofAliasEntries]
    · exact madeOf_append
        (fun d hd => (madeOf_ofValue (c.inside a) _ _ (.map entries) hv d hd).of_member)
        (madeOf_ofAliasEntries c _ name rest hrest)
    · simp
end

theorem madeBy_ofValue (c : Context) (scope : AliasScope) (name : String) (v : Json) :
    ∀ d ∈ ofValue c scope name v, MadeBy c.source name d :=
  fun d hd => (madeOf_ofValue c scope name v .self d hd).toMadeBy

/-- What a document defines is made of its sample. -/
theorem madeOf_definitions (options : Options) (d : Document) :
    ∀ e ∈ d.definitions options, MadeOf (d.markers options) d.origin d.name d.sample e :=
  madeOf_ofValue _ _ _ _ .self

/-- Everything that a document defines is its own. -/
theorem madeBy_definitions (options : Options) (d : Document) :
    ∀ e ∈ d.definitions options, MadeBy d.origin d.name e :=
  fun e he => (madeOf_definitions options d e he).toMadeBy

end Inference
end Exemplar
