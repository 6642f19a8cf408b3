import Exemplar.Proofs.DefiningPlaces
import Exemplar.Proofs.Origins

/-! Fields with samples of primitive types. What stands under the dotted name of such a field is not the
field itself, so two ways lead to that name, and they part at a struct with two members of one name. One
of the two is a type that an alias names. -/
namespace Exemplar
open Json Inference Identifier Relation

/-- Where two elements stand in a list: at one place, or one behind the other. -/
theorem split_cases {α : Type} {pre post pre' post' : List α} {e e' : α}
    (h : pre ++ e :: post = pre' ++ e' :: post') : (pre = pre' ∧ e = e') ∨
      (∃ mid, pre ++ e :: post = pre ++ e :: (mid ++ e' :: post')) ∨
      ∃ mid, pre ++ e :: post = pre' ++ e' :: (mid ++ e :: post) := by
  rcases List.append_eq_append_iff.mp h with ⟨mid, rfl, hmid⟩ | ⟨mid, rfl, hmid⟩
  · cases mid with
    | nil => exact .inl ⟨(List.append_nil pre).symm, (List.cons.inj hmid).1⟩
    | cons x mid =>
      obtain ⟨rfl, rfl⟩ := List.cons.inj hmid
      exact .inr (.inl ⟨mid, rfl⟩)
  · cases mid with
    | nil => exact .inl ⟨List.append_nil pre', (List.cons.inj hmid).1.symm⟩
    | cons x mid =>
      obtain ⟨rfl, rfl⟩ := List.cons.inj hmid
      exact .inr (.inr ⟨mid, by simp⟩)

namespace Place

variable {options : Options} {p q q' root : Place} {entries : List (Scalar × Json)} {n : String}
  {P : Scalar → Prop}

/-- A place is met from another one in one step. -/
inductive Leads (options : Options) : Place → Place → Prop
  | held {p q : Place} (holds : p.Holds options q) : Leads options p q
  | target {p : Place} {entries pre post : List (Scalar × Json)} {a : Scalar} {v : Json}
      (struct : p.struct? options = some entries)
      (own : ownBlock options entries = pre ++ (a, v) :: post)
      (defines : definesType (a, v) = true) :
      Leads options p ⟨p.scope.push (blockTable p.scope p.name [] (pre ++ [(a, v)])),
        Name.member p.name (Identifier.ofText a.plainText), v⟩

theorem occurs_iff : Occurs options root p ↔ ReflTransGen (Leads options) root p := by
  constructor
  · intro h
    induction h with
    | root => exact .refl
    | held _ holds ih => exact ih.tail (.held holds)
    | target _ struct own defines ih => exact ih.tail (.target struct own defines)
  · intro h
    induction h with
    | refl => exact .root
    | tail _ hlast ih =>
      cases hlast with
      | held holds => exact .held ih holds
      | target struct own defines => exact .target ih struct own defines

/-- Two members of a struct come under one name: the types of two aliases, or that of an alias and a
field. -/
inductive Doubles (options : Options) (p : Place) (n : String) : Prop
  | aliases {entries pre mid post : List (Scalar × Json)} {e e' : Scalar × Json}
      (struct : p.struct? options = some entries)
      (own : ownBlock options entries = pre ++ e :: (mid ++ e' :: post))
      (defines : definesType e = true) (defines' : definesType e' = true)
      (name : Name.member p.name (ofText e.1.plainText) = n)
      (name' : Name.member p.name (ofText e'.1.plainText) = n)
  | field {entries : List (Scalar × Json)} {e f : Scalar × Json}
      (struct : p.struct? options = some entries) (own : e ∈ ownBlock options entries)
      (defines : definesType e = true) (mem : f ∈ entries)
      (isField : (Markers.ofOptions options).isField f.1 = true)
      (name : Name.member p.name (ofText e.1.plainText) = n)
      (name' : fieldPlace (.ofOptions options) entries p.name f.1 = n)

/-- What a struct leads to: the values of its fields and the targets of its aliases. -/
inductive LeadsTo (options : Options) (p : Place) (entries : List (Scalar × Json)) (q : Place) : Prop
  | field {e : Scalar × Json} (mem : e ∈ entries)
      (isField : (Markers.ofOptions options).isField e.1 = true)
      (place : q = ⟨p.inside options, fieldPlace (.ofOptions options) entries p.name e.1, e.2⟩)
  | target {pre post : List (Scalar × Json)} {e : Scalar × Json}
      (own : ownBlock options entries = pre ++ e :: post) (defines : definesType e = true)
      (place : q = ⟨p.scope.push (blockTable p.scope p.name [] (pre ++ [e])),
        Name.member p.name (ofText e.1.plainText), e.2⟩)

theorem Leads.of_struct (struct : p.struct? options = some entries) (h : p.Leads options q) :
    p.LeadsTo options entries q := by
  cases h with
  | held holds =>
    cases holds with
    | field struct' mem isField =>
      obtain rfl := Option.some.inj (struct.symm.trans struct')
      exact .field mem isField rfl
    | marked noEnum found =>
      obtain ⟨hvalue, hstruct⟩ := struct?_iff.mp struct
      cases hvalue
      cases hstruct.noMapOf.symm.trans found
    | item first => cases (struct?_iff.mp struct).1
  | target struct' own defines =>
    obtain rfl := Option.some.inj (struct.symm.trans struct')
    exact .target own defines rfl

theorem Leads.eq_of_no_struct (hno : p.struct? options = none) (h : p.Leads options q)
    (h' : p.Leads options q') : q = q' := by
  have hheld {r : Place} (h : p.Leads options r) : p.Holds options r := by
    cases h with
    | held holds => exact holds
    | target struct own defines => cases hno.symm.trans struct
  have hq := hheld h
  have hq' := hheld h'
  cases hq with
  | field struct _ _ => cases hno.symm.trans struct
  | marked _ found =>
    cases hq' with
    | field struct _ _ => cases hno.symm.trans struct
    | marked _ found' => rw [Option.some.inj (found.symm.trans found')]
  | item first =>
    cases hq' with
    | field struct _ _ => cases hno.symm.trans struct
    | item first' => rw [Json.map.inj (Option.some.inj (first.symm.trans first'))]

theorem Leads.inside (h : p.Leads options q) : Name.Inside p.name q.name := by
  cases h with
  | held holds =>
    cases holds with
    | field _ _ _ => exact .inr ⟨_, rfl⟩
    | marked _ _ => exact .inl rfl
    | item _ => exact .inr ⟨_, rfl⟩
  | target _ _ _ => exact .inr ⟨_, rfl⟩

theorem inside_of_reached (h : ReflTransGen (Leads options) p q) : Name.Inside p.name q.name := by
  induction h with
  | refl => exact .inl rfl
  | tail _ hlast ih => exact ih.trans hlast.inside

theorem Sound.names_fields (hp : p.Sound P) (struct : p.struct? options = some entries) :
    (NameTable.ofKeys ofText ((Assoc.keys entries).filter (Markers.ofOptions options).isField)).Names
      ((Assoc.keys entries).filter (Markers.ofOptions options).isField) := by
  have hv := hp.value
  rw [(struct?_iff.mp struct).1] at hv
  cases hv with
  | map names once _ =>
    exact NameTable.names_ofKeys isWord_ofText
      ((List.pairwise_map.mpr (pairwise_keys names once)).filter _)

theorem Sound.str_of_field (hp : p.Sound P) (struct : p.struct? options = some entries)
    {e : Scalar × Json} (mem : e ∈ entries) (isField : (Markers.ofOptions options).isField e.1 = true) :
    ∃ s, e.1 = .str s ∧ .str s ∈ (Assoc.keys entries).filter (Markers.ofOptions options).isField := by
  have hv := hp.value
  rw [(struct?_iff.mp struct).1] at hv
  cases hv with
  | map names _ _ =>
    obtain ⟨s, hs⟩ := names e mem
    exact ⟨s, hs, List.mem_filter.mpr ⟨hs ▸ List.mem_map_of_mem mem, hs ▸ isField⟩⟩

theorem Sound.field_eq (hp : p.Sound P) (struct : p.struct? options = some entries)
    {e e' : Scalar × Json} (mem : e ∈ entries)
    (isField : (Markers.ofOptions options).isField e.1 = true) (mem' : e' ∈ entries)
    (isField' : (Markers.ofOptions options).isField e'.1 = true)
    (hname : fieldPlace (.ofOptions options) entries p.name e.1 =
      fieldPlace (.ofOptions options) entries p.name e'.1) : e = e' := by
  have hnames := hp.names_fields struct
  obtain ⟨s, hs, hkey⟩ := hp.str_of_field struct mem isField
  obtain ⟨s', hs', hkey'⟩ := hp.str_of_field struct mem' isField'
  rw [hs, hs'] at hname
  have hproperty := Name.segment_unique (isWord_propertyIn hnames hkey) (isWord_propertyIn hnames hkey')
    (.inl rfl) (.inl hname)
  have hsame := propertyIn_injective hnames hkey hkey' hproperty
  have hv := hp.value
  rw [(struct?_iff.mp struct).1] at hv
  cases hv with
  | map _ once _ =>
    refine List.inj_on_of_nodup_map once mem mem' ?_
    rw [hs, hs', hsame]

theorem LeadsTo.name_eq (hp : p.Sound P) (struct : p.struct? options = some entries)
    (h : p.LeadsTo options entries q) : ∃ w, IsWord w ∧ q.name = Name.member p.name w := by
  cases h with
  | @field e mem isField place =>
    obtain ⟨s, hs, hkey⟩ := hp.str_of_field struct mem isField
    refine ⟨_, isWord_propertyIn (hp.names_fields struct) hkey, ?_⟩
    rw [place, hs]
    rfl
  | target own defines place => exact ⟨_, isWord_ofText _, by rw [place]⟩

/-- Two members of a struct under one name are one member, or one of them is the type of an alias. -/
theorem LeadsTo.eq_or_doubles (hp : p.Sound P) (struct : p.struct? options = some entries)
    (h : p.LeadsTo options entries q) (h' : p.LeadsTo options entries q') (hname : q.name = q'.name) :
    q = q' ∨ p.Doubles options q.name := by
  cases h with
  | @field e mem isField place =>
    cases h' with
    | @field e' mem' isField' place' =>
      left
      rw [place, place'] at hname ⊢
      rw [hp.field_eq struct mem isField mem' isField' hname]
    | @target pre post e' own defines place' =>
      right
      exact .field struct (own ▸ by simp) defines mem isField (by rw [hname, place']) (by rw [place])
  | @target pre post e own defines place =>
    cases h' with
    | @field e' mem' isField' place' =>
      right
      exact .field struct (own ▸ by simp) defines mem' isField' (by rw [place]) (by rw [hname, place'])
    | @target pre' post' e' own' defines' place' =>
      rcases split_cases (own.symm.trans own') with ⟨rfl, rfl⟩ | ⟨mid, hmid⟩ | ⟨mid, hmid⟩
      · exact .inl (place.trans place'.symm)
      · exact .inr (.aliases struct (own.trans hmid) defines defines' (by rw [place])
          (by rw [hname, place']))
      · exact .inr (.aliases struct (own.trans hmid) defines' defines (by rw [hname, place'])
          (by rw [place]))

/-- Two steps from a place that both lead towards a name are one step, or the place doubles a name on
the way. -/
theorem Sound.parts (hp : p.Sound P) (h : p.Leads options q) (h' : p.Leads options q')
    (hq : Name.Inside q.name n) (hq' : Name.Inside q'.name n) :
    q = q' ∨ ∃ m, p.Doubles options m ∧ Name.Inside m n := by
  cases hstruct : p.struct? options with
  | none => exact .inl (h.eq_of_no_struct hstruct h')
  | some entries =>
    have hto := h.of_struct hstruct
    have hto' := h'.of_struct hstruct
    obtain ⟨w, hw, hname⟩ := hto.name_eq hp hstruct
    obtain ⟨w', hw', hname'⟩ := hto'.name_eq hp hstruct
    obtain rfl := Name.segment_unique hw hw' (hname ▸ hq) (hname' ▸ hq')
    exact (hto.eq_or_doubles hp hstruct hto' (hname.trans hname'.symm)).imp_right fun h => ⟨_, h, hq⟩

/-- Of two places towards a name one is met from the other, or a struct of the document doubles a name
on the way. -/
theorem reached_or_doubles (hroot : root.Sound P) (hp : ReflTransGen (Leads options) root p)
    (hq : ReflTransGen (Leads options) root q) (hpn : Name.Inside p.name n)
    (hqn : Name.Inside q.name n) :
    ReflTransGen (Leads options) p q ∨ ReflTransGen (Leads options) q p ∨
      ∃ t m, Occurs options root t ∧ t.Doubles options m ∧ Name.Inside m n := by
  -- on the way to the first place: as long as the second one lies ahead, both ways take the same step,
  -- or they part here
  induction hp with
  | refl => exact .inl hq
  | @tail p p' hbefore hlast ih =>
    rcases ih (hlast.inside.trans hpn) with hfrom | hto | hdouble
    · rcases hfrom.cases_head with rfl | ⟨q', hnext, hrest⟩
      · exact .inr (.inl (.single hlast))
      · have hoccurs := occurs_iff.mpr hbefore
        rcases (hoccurs.sound hroot).parts hlast hnext hpn
          ((inside_of_reached hrest).trans hqn) with rfl | ⟨m, hm, hin⟩
        · exact .inl hrest
        · exact .inr (.inr ⟨p, m, hoccurs, hm, hin⟩)
    · exact .inr (.inl (hto.tail hlast))
    · exact .inr (.inr hdouble)

theorem Stands.no_scalar {e : Definition} (h : p.Stands options e) (x : Scalar) :
    p.value ≠ .scalar x := by
  cases h with
  | list value _ _ => simp [value]
  | enum value _ _ _ => simp [value]
  | struct struct _ _ _ => simp [(struct?_iff.mp struct).1]

theorem Leads.no_scalar (h : p.Leads options q) (x : Scalar) : p.value ≠ .scalar x := by
  cases h with
  | held holds =>
    cases holds with
    | field struct _ _ => simp [(struct?_iff.mp struct).1]
    | marked _ _ => simp
    | item _ => simp
  | target struct _ _ => simp [(struct?_iff.mp struct).1]

/-- Behind a place that defines something everything stands under longer names. -/
theorem Stands.longer {e : Definition} (h : p.Stands options e) (hq : p.Leads options q) :
    ∃ w, q.name = Name.member p.name w := by
  cases hq with
  | held holds =>
    cases holds with
    | field _ _ _ => exact ⟨_, rfl⟩
    | item _ => exact ⟨_, rfl⟩
    | marked noEnum found =>
      cases h with
      | list value _ _ => cases value
      | enum value isEnum _ _ =>
        cases value
        cases noEnum.symm.trans isEnum
      | struct struct _ _ _ =>
        obtain ⟨hvalue, hstruct⟩ := struct?_iff.mp struct
        cases hvalue
        cases hstruct.noMapOf.symm.trans found
  | target _ _ _ => exact ⟨_, rfl⟩

/-- What is defined under the name of a scalar field is not defined by the field, so the document has a
struct that doubles a name on the way. -/
theorem Sound.exists_doubled (hroot : root.Sound P) (hp : Occurs options root p)
    (struct : p.struct? options = some entries) {e : Scalar × Json} (mem : e ∈ entries)
    (isField : (Markers.ofOptions options).isField e.1 = true) {x : Scalar} (hx : e.2 = .scalar x)
    (hq : Occurs options root q) {d : Definition} (hd : q.Stands options d)
    (hname : q.name = fieldPlace (.ofOptions options) entries p.name e.1) :
    ∃ t m, Occurs options root t ∧ t.Doubles options m ∧ Name.Inside m q.name := by
  have hfield : Occurs options root _ := .held hp (.field struct mem isField)
  rcases reached_or_doubles hroot (occurs_iff.mp hfield) (occurs_iff.mp hq) (n := q.name)
    (.inl hname) (.inl rfl) with hfrom | hto | hdouble
  · rcases hfrom.cases_head with rfl | ⟨r, hnext, -⟩
    · exact absurd hx (hd.no_scalar x)
    · exact absurd hx (hnext.no_scalar x)
  · rcases hto.cases_head with rfl | ⟨r, hnext, hrest⟩
    · exact absurd hx (hd.no_scalar x)
    · obtain ⟨w, hw⟩ := hd.longer hnext
      have hback := inside_of_reached hrest
      rw [hw] at hback
      exact absurd (hname ▸ hback) (Name.not_inside_member _ _)
  · exact hdouble

end Place

/-- The primitive type that a sample gives by itself: the one that a text names, or the type of any
other scalar. -/
def Json.primitive? : Json → Option Primitive
  | .scalar (.str name) => Primitive.ofName? name
  | .scalar x => some (.ofScalar x)
  | _ => none

theorem Json.scalar_of_primitive {v : Json} {p : Primitive} (h : v.primitive? = some p) :
    ∃ x, v = .scalar x := by
  cases v with
  | scalar x => exact ⟨x, rfl⟩
  | list items => cases h
  | map entries => cases h

theorem TypeTable.classify_primitive {types : TypeTable} {v : Json} {p : Primitive}
    (h : v.primitive? = some p) (s : Option Surrounding) :
    types.classify v s = some (.primitive p) := by
  obtain ⟨x, rfl⟩ := Json.scalar_of_primitive h
  cases x with
  | str name =>
    have hname : Primitive.ofName? name = some p := h
    simp only [classify, classifyName, hname]
  | _ => exact congrArg (Option.map TypeRef.primitive) h

namespace Registry

variable {options : Options} {doc : Document} {name : String} {d : Definition} {f : Field}

/-- A field of a schema document stands in a struct that is met in it. -/
theorem exists_struct_of_field (hschema : doc.plain = false) {P : Scalar → Prop}
    (hv : IsDocument P doc.value) (hd : (ofDocuments options [doc]).get? name = some d)
    (hf : f ∈ d.fields) : ∃ p entries e, Place.Occurs options doc.place p ∧ p.name = name ∧
      p.struct? options = some entries ∧ e ∈ entries ∧
      (Markers.ofOptions options).isField e.1 = true ∧ e.2 = f.sample ∧
      fieldPlace (.ofOptions options) entries name e.1 = Name.member name f.property := by
  obtain ⟨-, doc', hdoc, e, x, hdefined, hname, hx, hshape, -, rfl⟩ := exists_definition hd
  obtain rfl := List.mem_singleton.mp hdoc
  rw [fields_resolvedIn] at hf
  obtain ⟨g, hg, rfl⟩ := List.mem_map.mp hf
  have hfields : x.fields = e.fields := by rw [Definition.fields, Definition.fields, hshape]
  rw [hfields] at hg
  rcases hdefined with hdefined | rfl
  · obtain ⟨p, hp, hstands⟩ := Document.exists_place hschema hv hdefined
    cases hstands with
    | list _ _ fields => rw [fields] at hg; cases hg
    | enum _ _ _ fields => rw [fields] at hg; cases hg
    | @struct entries c struct markers hpname fields =>
      rw [fields] at hg
      obtain ⟨entry, hentry, rfl⟩ := List.mem_map.mp hg
      obtain ⟨hmem, hfield⟩ := List.mem_filter.mp hentry
      rw [markers] at hfield
      refine ⟨p, entries, entry, hp, hpname.symm.trans hname, struct, hmem, hfield, rfl, ?_⟩
      rw [TypeTable.resolveField, fieldNames, markers]
      rfl
  · cases hg

/-- What is registered of one schema document is defined at a place of it, or is the empty struct under
its name. -/
theorem exists_place_of_type (hschema : doc.plain = false) {P : Scalar → Prop}
    (hv : IsDocument P doc.value) (hd : (ofDocuments options [doc]).get? name = some d) :
    name = doc.name ∨
      ∃ p e, Place.Occurs options doc.place p ∧ p.name = name ∧ p.Stands options e := by
  obtain ⟨-, doc', hdoc, e, x, hdefined, hname, -⟩ := exists_definition hd
  obtain rfl := List.mem_singleton.mp hdoc
  rcases hdefined with hdefined | rfl
  · obtain ⟨p, hp, hstands⟩ := Document.exists_place hschema hv hdefined
    exact .inr ⟨p, e, hp, hstands.name_eq.symm.trans hname, hstands⟩
  · exact .inl hname.symm

/-- A field whose place defines nothing has the primitive type of its sample. -/
theorem type_of_primitive (hd : (ofDocuments options [doc]).get? name = some d) (hf : f ∈ d.fields)
    (hnone : (ofDocuments options [doc]).get? (Name.member name f.property) = none) {p : Primitive}
    (hp : f.sample.primitive? = some p) : f.type = some (.primitive p) := by
  have hplace : (ofDocuments options [doc]).types.get? (Name.member d.name f.property) = none :=
    (exists_definition hd).1.symm ▸ hnone
  have htype : (ofDocuments options [doc]).types.fieldType? d f = some (.primitive p) := by
    rw [TypeTable.fieldType?, hplace]
    exact TypeTable.classify_primitive hp (some d.surrounding)
  rw [field_ofDocuments hd hf, htype, Option.getD_some]

/-- In the registry of one schema document a field with a primitive sample has the type of its sample,
unless a type is registered under the dotted name of the field. Then it has that type, and the document
has a struct on the way to the field in which the type of an alias comes under the name of a field or of
the type of another alias. -/
theorem type_of_sample (hschema : doc.plain = false) {P : Scalar → Prop}
    (hv : IsDocument P doc.value) (hd : (ofDocuments options [doc]).get? name = some d)
    (hf : f ∈ d.fields) {p : Primitive} (hp : f.sample.primitive? = some p) :
    (ofDocuments options [doc]).get? (Name.member name f.property) = none ∧
        f.type = some (.primitive p) ∨
      ∃ own, (ofDocuments options [doc]).get? (Name.member name f.property) = some own ∧
        f.type = some own.ref ∧ ∃ t m, Place.Occurs options doc.place t ∧ t.Doubles options m ∧
          Name.Inside m (Name.member name f.property) := by
  cases hown : (ofDocuments options [doc]).get? (Name.member name f.property) with
  | none => exact .inl ⟨rfl, type_of_primitive hd hf hown hp⟩
  | some own =>
    refine .inr ⟨own, rfl, (inferred_ofDocuments options [doc]).fields _ _ hd f hf own hown, ?_⟩
    obtain ⟨place, entries, e, hplace, rfl, struct, hmem, hfield, hsample, hname⟩ :=
      exists_struct_of_field hschema hv hd hf
    have hroot := doc.sound_place hschema hv
    obtain ⟨x, hx⟩ := Json.scalar_of_primitive hp
    rcases exists_place_of_type hschema hv hown with hname' | ⟨q, other, hq, hqname, hstands⟩
    · have hinside := Place.inside_of_reached (Place.occurs_iff.mp hplace)
      have hsame : doc.place.name = Name.member place.name f.property := hname'.symm
      rw [hsame] at hinside
      exact absurd hinside (Name.not_inside_member _ _)
    · rw [← hqname]
      exact hroot.exists_doubled hplace struct hmem hfield (hsample.trans hx) hq hstands
        (hqname.trans hname.symm)

def doublingDocument : Document where
  name := "N"
  source := "N.jschema"
  value := .map [
    (.str "__typedefs", .map [(.str "f", .map [(.str "x", .str "int")])]),
    (.str "f", .str "int")]

theorem type_of_sample_doubling :
    let r := ofDocuments {} [doublingDocument]
    ∃ d f, r.get? "N" = some d ∧ f ∈ d.fields ∧ f.sample.primitive? = some .int ∧
      (r.get? (Name.member "N" f.property) = none ∧ f.type = some (.primitive .int) ∨
        ∃ own, r.get? (Name.member "N" f.property) = some own ∧ f.type = some own.ref ∧
          ∃ t m, Place.Occurs {} doublingDocument.place t ∧ t.Doubles {} m ∧
            Name.Inside m (Name.member "N" f.property)) := by
  intro r
  have hfound : ∃ d ∈ r.get? "N", ∃ f ∈ d.fields, f.sample.primitive? = some .int := by
    decide +kernel
  obtain ⟨d, hd, f, hf, hp⟩ := hfound
  have hv : IsDocument (fun _ => True) doublingDocument.value := by decide +kernel
  exact ⟨d, f, hd, hf, hp, type_of_sample rfl hv hd hf hp⟩

/-- The alias takes the field over: its sample names a primitive type, and its type is a struct. -/
theorem not_type_of_sample :
    ∃ d ∈ (ofDocuments {} [doublingDocument]).get? "N", ∃ f ∈ d.fields,
      f.sample.primitive? = some .int ∧ f.type = some (.defined "N.f" 0) := by
  decide +kernel

end Registry
end Exemplar
