import Exemplar.Proofs.BoundContent
import Exemplar.Proofs.FieldKeys
import Exemplar.Proofs.PlainRegistry

/-! Binding a plain sample to its own type. Every map that is met along keys and first elements gets
the struct that was made from it, and so does every list that is not the first element of another
one. -/
namespace Exemplar
open Json Inference

namespace Snapshot

def HasStruct (r : Registry) (name : String) (mark : Mark) : Prop :=
  mark.type = some (.struct name) ∧ ∃ d fields, r.get? name = some d ∧ d.shape = .struct fields []

def HasListType (r : Registry) (name : String) (mark : Mark) : Prop :=
  mark.type = some (.list name) ∧
    ∃ d depth sample element, r.get? name = some d ∧ d.shape = .list depth sample element

mutual
/-- The containers of a value have the types that are registered under the names of their places. A
list in a list has no type of its own. -/
def HasTypes (r : Registry) (name : String) : Snapshot → Prop
  | .map _ mark entries =>
    HasStruct r name mark ∧ EntriesHaveTypes r name (propertyNames entries) entries
  | .list _ mark items => HasListType r name mark ∧ FirstHasTypes r name items
  | _ => True
def FirstHasTypes (r : Registry) (name : String) : List Snapshot → Prop
  | [] => True
  | x :: _ => ElementHasTypes r name x
def ElementHasTypes (r : Registry) (name : String) : Snapshot → Prop
  | .map _ mark entries =>
    HasStruct r (elementName name) mark ∧
      EntriesHaveTypes r (elementName name) (propertyNames entries) entries
  | .list _ _ items => FirstHasTypes r name items
  | _ => True
def EntriesHaveTypes (r : Registry) (name : String) (names : NameTable) :
    List (Scalar × Snapshot) → Prop
  | [] => True
  | (key, x) :: rest =>
    HasTypes r (Name.member name (propertyIn names key)) x ∧ EntriesHaveTypes r name names rest
end

theorem propertyNames_of_entriesJson? {ys : List (Scalar × Snapshot)}
    {entries : List (Scalar × Json)} (h : entriesJson? ys = some entries) :
    propertyNames ys = propertyNames entries := by
  rw [propertyNames, propertyNames, keys_of_entriesJson? h]

end Snapshot

/-- A field that was made from an entry, under the name that its key has. -/
def FieldOf (names : NameTable) (type : String → Json → TypeRef) (e : Scalar × Json) (f : Field) :
    Prop :=
  f.key = e.1 ∧ f.property = propertyIn names e.1 ∧ f.type = some (type f.property e.2)

variable {names : NameTable} {type : String → Json → TypeRef} {entries : List (Scalar × Json)}
  {fields : List Field} {q : Scalar → Prop}

theorem keys_of_fields (h : List.Forall₂ (FieldOf names type) entries fields) :
    fields.map Field.key = Assoc.keys entries ∧
      fields.map Field.property = (Assoc.keys entries).map (propertyIn names) := by
  induction h with
  | nil => exact ⟨rfl, rfl⟩
  | cons hf _ ih =>
    simp only [List.map_cons, Assoc.keys, ih.1, ih.2, hf.1, hf.2.1, and_self]

/-- The key of an entry leads to a field of the type that the entry's value has. -/
theorem fieldForKey?_of_fields {d : Definition} (type : String → Json → TypeRef)
    (h : List.Forall₂ (FieldOf (propertyNames entries) type) entries d.fields)
    (hnames : ∀ e ∈ entries, ∃ s, e.1 = .str s) (honce : (Assoc.keys entries).Nodup)
    {e : Scalar × Json} (he : e ∈ entries) :
    (d.fieldForKey? e.1).bind Field.type =
      some (type (propertyIn (propertyNames entries) e.1) e.2) := by
  obtain ⟨hkeys, hproperties⟩ := keys_of_fields h
  have hd : d.Keyed := by
    refine .of_names (fun k hk => ?_) honce (names_propertyNames hnames honce) hkeys hproperties
    obtain ⟨e', he', rfl⟩ := List.mem_map.mp hk
    exact hnames e' he'
  obtain ⟨f, hf, hkey, hproperty, htype⟩ := exists_of_forall₂ h he
  rw [← hkey, hd.fieldForKey? hf, Option.bind_some, htype, hproperty, hkey]

namespace Target

variable {r : Registry} {d : Definition} {name : String}

theorem ofRef_struct {fields : List Field} {aliases : Aliases} (hd : r.get? name = some d)
    (hedition : d.edition = 0) (hshape : d.shape = .struct fields aliases) :
    ofRef r (some (.defined name 0)) = ⟨some d, none⟩ := by
  rw [ofRef, Registry.definition?, hd]
  simp [hedition, ofDefinition, hshape]

theorem ofRef_list {depth : Nat} {sample : Json} {element : Option TypeRef}
    (hd : r.get? name = some d) (hedition : d.edition = 0)
    (hshape : d.shape = .list depth sample element) :
    ofRef r (some (.defined name 0)) = ⟨none, some (d, depth)⟩ := by
  rw [ofRef, Registry.definition?, hd]
  simp [hedition, ofDefinition, hshape]

theorem ofElement_list {depth : Nat} {sample : Json} {element : Option TypeRef}
    (hshape : d.shape = .list depth sample element) : ofElement r d = ofRef r element := by
  rw [ofElement, hshape]

/-- One level above its elements a list holds elements; further up it holds lists. -/
theorem ofItem_one (r : Registry) (d : Definition) : ofItem r d 1 = ofElement r d := rfl

theorem inside_ofItem (r : Registry) (d : Definition) (depth : Nat) :
    (ofItem r d (depth + 2)).inside r = ofItem r d (depth + 1) := by
  rw [ofItem, if_pos (by omega)]
  rfl

end Target

namespace Workshop
open Snapshot

variable {w : Workshop} {space source : String} {found : List (String × Json)}

theorem entriesHaveTypes {name : String} {names : NameTable} {target : Scalar → Target}
    {ys : List (Scalar × Snapshot)} {entries : List (Scalar × Json)}
    (hys : entriesJson? ys = some entries) (hmarked : w.MarkedEntries target ys)
    (hentries : ∀ e ∈ entries, ∀ y : Snapshot, y.json? = some e.2 → w.Marked (target e.1) y →
      HasTypes w.registry (Name.member name (propertyIn names e.1)) y) :
    EntriesHaveTypes w.registry name names ys := by
  induction ys generalizing entries with
  | nil => trivial
  | cons y ys ih =>
    obtain ⟨key, y⟩ := y
    obtain ⟨j, rest, rfl, hy, hrest⟩ := entriesJson?_cons.mp hys
    exact ⟨hentries (key, j) (by simp) y hy hmarked.1,
      ih hrest hmarked.2 fun e he => hentries e (by simp [he])⟩

/-- What binding marks is typed as it should be: a value at a site, and the first element of a list
so many levels above its elements. -/
structure TypesSites (w : Workshop) (found : List (String × Json)) (v : Json) : Prop where
  value : ∀ (name : String) (y : Snapshot), (name, v) ∈ found → y.json? = some v →
    w.Marked (.ofRef w.registry (some (refAt name v))) y → HasTypes w.registry name y
  element : ∀ (name : String) (d : Definition) (depth : Nat) (sample : Json) (y : Snapshot),
    (elementName name, (innermost v).getD null) ∈ found →
    d.shape = .list depth sample (some (refAt (elementName name) ((innermost v).getD null))) →
    y.json? = some v → w.Marked (.ofItem w.registry d (levels v + 1)) y →
    ElementHasTypes w.registry name y

theorem typesSites_scalar (a : Scalar) : w.TypesSites found (.scalar a) where
  value name y _ hy _ := by
    cases y with
    | list r mark ys => simp [json?] at hy
    | map r mark ys => simp [json?] at hy
    | _ => trivial
  element name d depth sample y _ _ hy _ := by
    cases y with
    | list r mark ys => simp [json?] at hy
    | map r mark ys => simp [json?] at hy
    | _ => trivial

theorem typesSites_map (hw : w.registry = .ofSites source found) (h : Apart space found)
    (hclosed : Closed found) {entries : List (Scalar × Json)}
    (hnames : ∀ e ∈ entries, ∃ s, e.1 = .str s) (honce : (Assoc.keys entries).Nodup)
    (hparts : ∀ e ∈ entries, w.TypesSites found e.2) : w.TypesSites found (.map entries) := by
  have hvalue (name : String) (y : Snapshot) (hsite : (name, .map entries) ∈ found)
      (hy : y.json? = some (.map entries))
      (hmarked : w.Marked (.ofRef w.registry (some (.defined name 0))) y) :
      ∃ r mark ys, y = .map r mark ys ∧ HasStruct w.registry name mark ∧
        EntriesHaveTypes w.registry name (propertyNames ys) ys := by
    obtain ⟨d, fields, hd, hname, hedition, -, hshape, hfields⟩ :=
      Registry.struct_ofSites source h hclosed hsite
    rw [← hw] at hd
    obtain ⟨r, mark, ys, rfl, hys⟩ := json?_map hy
    rw [Target.ofRef_struct hd hedition hshape] at hmarked
    obtain ⟨hmark, hrest⟩ := hmarked
    refine ⟨r, mark, ys, rfl, ⟨?_, d, fields, hd, hshape⟩, ?_⟩
    · rw [hmark, ← hname]
      rfl
    · rw [propertyNames_of_entriesJson? hys]
      refine entriesHaveTypes hys hrest fun e he y' hy' hmarked' => ?_
      have hfield : (d.fieldForKey? e.1).bind Field.type =
          some (refAt (Name.member name (propertyIn (propertyNames entries) e.1)) e.2) := by
        refine fieldForKey?_of_fields (fun p v => refAt (Name.member name p) v) ?_ hnames honce he
        rwa [Definition.fields, hshape]
      refine (hparts e he).value _ y' (hclosed.entry hsite e he) hy' ?_
      rw [← hfield]
      exact hmarked'
  constructor
  · intro name y hsite hy hmarked
    obtain ⟨r, mark, ys, rfl, hmap⟩ := hvalue name y hsite hy hmarked
    exact hmap
  · intro name d depth sample y hsite hshape hy hmarked
    have hmarked : w.Marked (.ofItem w.registry d 1) y := hmarked
    rw [Target.ofItem_one, Target.ofElement_list hshape] at hmarked
    obtain ⟨r, mark, ys, rfl, hmap⟩ := hvalue (elementName name) y hsite hy hmarked
    exact hmap

/-- The first of the items that were bound, with one level less to the elements. -/
theorem firstHasTypes {name : String} {d : Definition} {depth : Nat} {sample : Json}
    {items : List Json} {ys : List Snapshot} (hitems : ∀ x ∈ items, w.TypesSites found x)
    (hsite : (elementName name, (itemInnermost items).getD null) ∈ found)
    (hshape : d.shape =
      .list depth sample (some (refAt (elementName name) ((itemInnermost items).getD null))))
    (hys : itemsJson? ys = some items)
    (hmarked : w.MarkedItems (.ofItem w.registry d (itemLevels items)) ys) :
    FirstHasTypes w.registry name ys := by
  cases ys with
  | nil => trivial
  | cons y ys =>
    obtain ⟨x, rest, rfl, hy, -⟩ := itemsJson?_cons.mp hys
    exact (hitems x (by simp)).element name d depth sample y hsite hshape hy hmarked.1

theorem typesSites_list (hw : w.registry = .ofSites source found) (h : Apart space found)
    (hclosed : Closed found) {items : List Json} (hitems : ∀ x ∈ items, w.TypesSites found x) :
    w.TypesSites found (.list items) where
  value name y hsite hy hmarked := by
    obtain ⟨d, hd, hname, hedition, -, hshape⟩ :=
      Registry.list_ofSites source h hclosed hsite
    rw [← hw] at hd
    obtain ⟨r, mark, ys, rfl, hys⟩ := json?_list hy
    have htarget : Target.ofRef w.registry (some (refAt name (.list items))) =
      ⟨none, some (d, itemLevels items)⟩ := Target.ofRef_list hd hedition hshape
    rw [htarget] at hmarked
    obtain ⟨hmark, hrest⟩ := hmarked
    refine ⟨⟨?_, d, _, _, _, hd, hshape⟩,
      firstHasTypes hitems (hclosed.element hsite) hshape hys hrest⟩
    rw [hmark, ← hname]
    simp [listMark, Definition.depth, hshape]
  element name d depth sample y hsite hshape hy hmarked := by
    obtain ⟨r, mark, ys, rfl, hys⟩ := json?_list hy
    cases items with
    | nil =>
      obtain rfl : ys = [] := by
        cases ys with
        | nil => rfl
        | cons y ys =>
          obtain ⟨x, rest, heq, -⟩ := itemsJson?_cons.mp hys
          cases heq
      trivial
    | cons x xs =>
      have hrest : w.MarkedItems ((Target.ofItem w.registry d (levels x + 2)).inside w.registry) ys :=
        hmarked.2
      rw [Target.inside_ofItem] at hrest
      exact firstHasTypes hitems hsite hshape hys hrest

/-- By induction on the document. -/
theorem typesSites (hw : w.registry = .ofSites source found) (h : Apart space found)
    (hclosed : Closed found) {v : Json} (hv : IsDocument q v) : w.TypesSites found v := by
  induction hv with
  | scalar => exact typesSites_scalar _
  | list _ ih => exact typesSites_list hw h hclosed ih
  | map names once _ ih => exact typesSites_map hw h hclosed names once ih

/-- A plain sample that is a map or a list, bound to the type that was inferred from it, keeps its
content, and all its maps and lists that are met along keys and first elements are typed. -/
theorem bind_plain (options : Options) {d : Document} (hplain : d.plain = true)
    (herrors : d.errors = []) {q : Scalar → Prop} (hv : IsDocument q d.value)
    (hcontainer : (d.value.isMap || d.value.isList) = true) :
    ∃ r root, Registry.ofDocument options d = .ok r ∧ r.get? d.name = some root ∧
      ∀ s v, (s.snapshot v).json? = some d.value →
        ∃ v' s', ((⟨r, options, false⟩ : Workshop).bind v (some root.ref)).run s = (.ok v', s') ∧
          (s'.snapshot v').json? = some d.value ∧ HasTypes r d.name (s'.snapshot v') := by
  have hapart := apart_sites hv d.name
  have hclosed := closed_sites hv d.name
  have hself := self_mem_sites d.name d.value
  have hregistry := Registry.ofDocument_eq options hplain herrors hv
  rw [d.root_of_container hcontainer] at hregistry
  obtain ⟨root, hget, href⟩ := Registry.ref_ofSites d.origin hapart hclosed hself hcontainer
  refine ⟨_, root, hregistry, hget, fun s v hsnapshot => ?_⟩
  obtain ⟨v', s', hrun, hbuilt, -⟩ :=
    bind_rebuilt (w := ⟨_, options, false⟩) (.inl rfl) (some root.ref) hsnapshot hv
  have hmarked := hbuilt.marked
  rw [href] at hmarked
  exact ⟨v', s', hrun, hbuilt.content,
    (typesSites rfl hapart hclosed hv).value d.name _ hself hbuilt.content hmarked⟩

def oddStore : Store where
  nodes := #[
    { body := .map [(.str "a b", .node 1), (.str "a_b", .node 4), (.str "a_b_2", .null),
        (.str "Element", .node 5)], form := .plain },
    { body := .list [.node 2], form := .plain },
    { body := .list [.node 3, .scalar (.int 1)], form := .plain },
    { body := .map [(.str "x", .scalar (.bool true))], form := .plain },
    { body := .map [], form := .plain },
    { body := .list [.node 6], form := .plain },
    { body := .list [], form := .plain }]

theorem bind_plain_odd :
    let d : Document := { name := "N", source := "", value := Registry.oddSample, plain := true }
    ∃ r root, Registry.ofDocument {} d = .ok r ∧ r.get? "N" = some root ∧
      ∃ v' s', ((⟨r, {}, false⟩ : Workshop).bind (.node 0) (some root.ref)).run oddStore =
          (.ok v', s') ∧
        (s'.snapshot v').json? = some Registry.oddSample ∧ HasTypes r "N" (s'.snapshot v') := by
  intro d
  obtain ⟨r, root, hr, hroot, hbind⟩ :=
    bind_plain {} (d := d) rfl rfl Registry.oddSample_isDocument rfl
  exact ⟨r, root, hr, hroot, hbind oddStore (.node 0) rfl⟩

end Workshop
end Exemplar
