import Exemplar.Proofs.Sites
import Exemplar.Schema.Catalogue

/-! What plain samples define. Each map and each list among the sites of a plain sample defines one
type, named after the site; no key has a meaning of its own. -/
namespace Exemplar.Inference
open Json

def elementSample (items : List Json) : Json :=
  ((itemInnermost items).map typeNames).getD (.list [])

def plainFields (entries : List (Scalar × Json)) : List Field :=
  entries.map fun e =>
    { key := e.1, property := propertyIn (propertyNames entries) e.1, sample := e.2.typeNames }

/-- What a value defines under the name of its site, not yet resolved. -/
def definitionAt (source : String) (site : String × Json) : Option Definition :=
  match site.2 with
  | .scalar _ => none
  | .list items =>
    some { name := site.1, source, shape := .list (itemLevels items) (elementSample items) none }
  | .map entries => some { name := site.1, source, shape := .struct (plainFields entries) [] }

def definitionsAt (source : String) (found : List (String × Json)) : List Definition :=
  found.filterMap (definitionAt source)

/-- A scope in which nothing is declared. -/
def Bare (scope : AliasScope) : Prop := ∀ t ∈ scope.tables, t = []

theorem Bare.push {scope : AliasScope} (h : Bare scope) : Bare (scope.push []) := by
  intro t ht
  rcases List.mem_cons.mp ht with rfl | ht
  · rfl
  · exact h t ht

theorem Bare.snapshot {scope : AliasScope} (h : Bare scope) : scope.snapshot = [] := by
  obtain ⟨tables⟩ := scope
  rw [AliasScope.snapshot]
  induction tables with
  | nil => rfl
  | cons t tables ih =>
    obtain rfl : t = [] := h t (by simp)
    rw [List.foldr_cons, ih fun t' ht' => h t' (by simp [ht'])]
    rfl

theorem keys_entryNames (entries : List (Scalar × Json)) :
    Assoc.keys (typeNames.entryNames entries) = Assoc.keys entries := by
  induction entries with
  | nil => rfl
  | cons e entries ih =>
    obtain ⟨key, x⟩ := e
    rw [typeNames.entryNames]
    simp only [Assoc.keys, List.map_cons] at ih ⊢
    rw [ih]

theorem entryNames_eq (entries : List (Scalar × Json)) :
    typeNames.entryNames entries = entries.map fun e => (e.1, e.2.typeNames) := by
  induction entries with
  | nil => rfl
  | cons e entries ih =>
    obtain ⟨key, x⟩ := e
    rw [typeNames.entryNames, ih]
    rfl

variable {c : Context} {q : Scalar → Prop}

theorem isField_plain (hc : c.markers = .none) {s : String} :
    c.markers.isField (.str s) = true := by
  rw [hc]
  rfl

theorem fieldNames_plain (hc : c.markers = .none) {entries : List (Scalar × Json)}
    (hnames : ∀ e ∈ entries, ∃ s, e.1 = .str s) :
    fieldNames c (typeNames.entryNames entries) = propertyNames entries := by
  rw [fieldNames, keys_entryNames, propertyNames, List.filter_eq_self.mpr]
  intro key hkey
  obtain ⟨e, he, rfl⟩ := List.mem_map.mp hkey
  obtain ⟨s, hs⟩ := hnames e he
  rw [hs]
  exact isField_plain hc

theorem fieldsOf_plain (hc : c.markers = .none) {entries : List (Scalar × Json)}
    (hnames : ∀ e ∈ entries, ∃ s, e.1 = .str s) :
    fieldsOf c (typeNames.entryNames entries) = plainFields entries := by
  rw [fieldsOf, fieldNames_plain hc hnames, entryNames_eq, List.filter_eq_self.mpr]
  · rw [List.map_map]
    rfl
  · intro e' he'
    obtain ⟨e, he, rfl⟩ := List.mem_map.mp he'
    obtain ⟨s, hs⟩ := hnames e he
    rw [hs]
    exact isField_plain hc

/-- The block of aliases that a plain map has: none. -/
theorem ofAliases_plain (hc : c.markers = .none) (scope : AliasScope) (name : String)
    (entries : List (Scalar × Json)) : ofAliases c scope name entries = ([], scope) := by
  induction entries with
  | nil => rfl
  | cons e entries ih =>
    obtain ⟨key, x⟩ := e
    rw [ofAliases, hc]
    simpa [Markers.none] using ih

/-- A plain map defines a struct behind all that its fields define. -/
theorem assembleMap_plain (hc : c.markers = .none) {scope : AliasScope} (hscope : Bare scope)
    (name : String) {entries : List (Scalar × Json)} (hnames : ∀ e ∈ entries, ∃ s, e.1 = .str s)
    (marked : List Definition) (fields : NameTable → AliasScope → List Definition) :
    assembleMap c scope name (typeNames.entryNames entries) marked
        (fun inside => ofAliases c inside name (typeNames.entryNames entries)) fields =
      fields (propertyNames entries) (scope.push []) ++
        [{ name, source := c.source, shape := .struct (plainFields entries) [] }] := by
  rw [assembleMap, ofAliases_plain hc, fieldNames_plain hc hnames, fieldsOf_plain hc hnames, hc]
  change fields (propertyNames entries) (scope.push []) ++ [({
    name, source := c.source,
    shape := .struct (plainFields entries) (scope.push []).snapshot } : Definition)] = _
  rw [hscope.push.snapshot]

theorem definitionsAt_append (source : String) (found more : List (String × Json)) :
    definitionsAt source (found ++ more) = definitionsAt source found ++ definitionsAt source more :=
  List.filterMap_append

/-- What a value defines, at a site and as the first element of a list. -/
structure Defines (source : String) (v : Json) : Prop where
  value : ∀ (c : Context) (scope : AliasScope) (name : String), c.markers = .none →
    c.source = source → Bare scope →
    ofValue c scope name v.typeNames = definitionsAt source (sites name v)
  element : ∀ (c : Context) (scope : AliasScope) (name : String) (depth : Nat),
    c.markers = .none → c.source = source → Bare scope →
    ofElement c scope name depth v.typeNames = definitionsAt source (elementSites name v) ++
      [listDefinition c name (depth + levels v) (((innermost v).map typeNames).getD (.list []))]

variable {source : String}

theorem defines_scalar (s : Scalar) : Defines source (.scalar s) := ⟨fun _ _ _ _ _ _ => rfl,
  fun _ _ _ _ _ _ _ => rfl⟩

theorem ofItems_plain {items : List Json} (hitems : ∀ x ∈ items, Defines source x)
    {scope : AliasScope} (name : String) (depth : Nat) (hc : c.markers = .none) (hsource : c.source = source)
    (hscope : Bare scope) :
    ofItems c scope name depth (typeNames.itemNames items) =
      definitionsAt source (itemSites name items) ++
        [listDefinition c name (depth + itemLevels items) (elementSample items)] := by
  cases items with
  | nil => rfl
  | cons x xs =>
    have hx := (hitems x (by simp)).element (c.inside (.int 0)) scope name (depth + 1) hc hsource
      hscope
    rw [typeNames.itemNames, ofItems, hx, itemLevels, Nat.add_right_comm, Nat.add_assoc]
    rfl

theorem defines_list {items : List Json} (hitems : ∀ x ∈ items, Defines source x) :
    Defines source (.list items) where
  value c scope name hc hsource hscope := by
    rw [typeNames, ofValue, ofItems_plain hitems name 0 hc hsource hscope, sites,
      definitionsAt_append, Nat.zero_add, ← hsource]
    rfl
  element c scope name depth hc hsource hscope := by
    rw [typeNames, ofElement, ofItems_plain hitems name depth hc hsource hscope]
    rfl

theorem ofFields_plain {entries : List (Scalar × Json)} (hparts : ∀ e ∈ entries, Defines source e.2)
    (hnames : ∀ e ∈ entries, ∃ s, e.1 = .str s) {scope : AliasScope} (name : String)
    (names : NameTable) (hc : c.markers = .none) (hsource : c.source = source)
    (hscope : Bare scope) :
    ofFields c scope name names (typeNames.entryNames entries) =
      definitionsAt source (entrySites name names entries) := by
  induction entries with
  | nil => rfl
  | cons e entries ih =>
    obtain ⟨key, x⟩ := e
    obtain ⟨s, hs⟩ := hnames (key, x) (by simp)
    have hs : key = .str s := hs
    have hx := (hparts (key, x) (by simp)).value (c.sample key x.typeNames) scope
      (Name.member name (propertyIn names key)) hc hsource hscope
    rw [typeNames.entryNames, ofFields, ih (fun e he => hparts e (by simp [he]))
      (fun e he => hnames e (by simp [he])), entrySites, definitionsAt_append, ← hx, hs,
      isField_plain hc]
    rfl

theorem defines_map {entries : List (Scalar × Json)} (hparts : ∀ e ∈ entries, Defines source e.2)
    (hnames : ∀ e ∈ entries, ∃ s, e.1 = .str s) : Defines source (.map entries) where
  value c scope name hc hsource hscope := by
    rw [typeNames, ofValue, assembleMap_plain hc hscope name hnames,
      ofFields_plain hparts hnames name _ hc hsource hscope.push, sites, definitionsAt_append,
      ← hsource]
    rfl
  element c scope name depth hc hsource hscope := by
    rw [typeNames, ofElement, assembleMap_plain (c := c.keeping _) hc hscope _ hnames,
      ofFields_plain (c := c.keeping _) hparts hnames _ _ hc hsource hscope.push, elementSites,
      definitionsAt_append, ← hsource]
    rfl

/-- Every document defines what is defined at its sites, by induction on the document. -/
theorem defines {v : Json} (hv : IsDocument q v) : Defines source v := by
  induction hv with
  | scalar => exact defines_scalar _
  | list _ ih => exact defines_list ih
  | map names _ _ ih => exact defines_map ih names

end Exemplar.Inference
