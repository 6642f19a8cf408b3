import Exemplar.Proofs.AliasScopes
import Mathlib.Data.List.Forall2

/-! What one value defines in two scopes. Scopes are only looked at for aliases: two runs that keep
their scopes related make the same definitions, but for the aliases that the structs take along. -/
namespace Exemplar
open Json

/-- Scalars are the same, and containers are of the same kind. -/
def Json.Alike : Json → Json → Prop
  | .scalar s, .scalar t => s = t
  | .list _, .list _ => True
  | .map _, .map _ => True
  | _, _ => False

/-- Fields that are not resolved yet, and have samples that refer to the same types. -/
structure Field.Alike (f f' : Field) : Prop where
  key : f'.key = f.key
  property : f'.property = f.property
  sample : f.sample.Alike f'.sample

def Shape.Alike (q : Aliases → Aliases → Prop) : Shape → Shape → Prop
  | .struct fields aliases, .struct fields' aliases' =>
    List.Forall₂ Field.Alike fields fields' ∧ q aliases aliases'
  | .enum values _, .enum values' _ => values' = values
  | .list depth sample _, .list depth' sample' _ => depth' = depth ∧ sample.Alike sample'
  | _, _ => False

/-- Definitions that are the same, but for their aliases, which are related. -/
structure Definition.Alike (q : String → Aliases → Aliases → Prop) (d d' : Definition) : Prop where
  name : d'.name = d.name
  source : d'.source = d.source
  edition : d'.edition = d.edition
  errors : d'.errors = d.errors
  shape : Shape.Alike (q d.name) d.shape d'.shape

theorem Definition.Alike.mono {q q' : String → Aliases → Aliases → Prop} {d d' : Definition}
    (h : d.Alike q d')
    (hq : ∀ t t', q d.name t t' → q' d.name t t') : d.Alike q' d' := by
  refine ⟨h.name, h.source, h.edition, h.errors, ?_⟩
  have hshape := h.shape
  cases hd : d.shape <;> cases hd' : d'.shape <;> rw [hd, hd'] at hshape
  case struct.struct => exact ⟨hshape.1, hq _ _ hshape.2⟩
  all_goals exact hshape

theorem Definition.Alike.kind {q : String → Aliases → Aliases → Prop} {d d' : Definition}
    (h : d.Alike q d') : d'.kind = d.kind := by
  have hshape := h.shape
  rw [Definition.kind, Definition.kind]
  cases hd : d.shape <;> cases hd' : d'.shape <;> rw [hd, hd'] at hshape
  case struct.struct | enum.enum | list.list => rfl
  all_goals exact hshape.elim

theorem Definition.Alike.ref {q : String → Aliases → Aliases → Prop} {d d' : Definition}
    (h : d.Alike q d') : d'.ref = d.ref := by
  rw [Definition.ref, Definition.ref, h.name, h.edition]

theorem Definition.Alike.aliases {q : String → Aliases → Aliases → Prop} {d d' : Definition}
    (h : d.Alike q d') (hstruct : d.kind = .struct) : q d.name d.aliases d'.aliases := by
  have hshape := h.shape
  rw [Definition.kind] at hstruct
  rw [Definition.aliases, Definition.aliases]
  cases hd : d.shape <;> cases hd' : d'.shape <;> rw [hd, hd'] at hshape
  case struct.struct => exact hshape.2
  all_goals
    rw [hd] at hstruct
    first | exact hshape.elim | cases hstruct

theorem Json.Alike.refl (v : Json) : v.Alike v := by
  cases v with
  | scalar s => rfl
  | list items => trivial
  | map entries => trivial

theorem Field.Alike.refl (f : Field) : f.Alike f := ⟨rfl, rfl, .refl _⟩

namespace Inference

/-- Places of documents with the same source and the same markers. -/
structure Context.Alike (c c' : Context) : Prop where
  source : c'.source = c.source
  markers : c'.markers = c.markers

/-- No alias block inside a document declares one of the keys. -/
inductive Undeclared (m : Markers) (taken : List Scalar) : Json → Prop
  | scalar (s : Scalar) : Undeclared m taken (.scalar s)
  | list {items : List Json} (parts : ∀ x ∈ items, Undeclared m taken x) :
      Undeclared m taken (.list items)
  | map {entries : List (Scalar × Json)} (names : ∀ e ∈ entries, ∃ s, e.1 = .str s)
      (parts : ∀ e ∈ entries, Undeclared m taken e.2)
      (blocks : ∀ e ∈ entries, (m.aliasesKey.any fun a => e.1 == a) = true →
        ∀ block, e.2 = .map block → ∀ x ∈ block, x.1 ∉ taken) :
      Undeclared m taken (.map entries)

theorem undeclared_nil {p : Scalar → Prop} (m : Markers) {v : Json} (hv : IsDocument p v) :
    Undeclared m [] v := by
  induction hv with
  | scalar => exact .scalar _
  | list _ ih => exact .list ih
  | map names _ _ ih => exact .map names ih fun _ _ _ _ _ _ _ => List.not_mem_nil

/-- What is needed of related scopes to run through a document that declares none of the keys. -/
structure Simulates (taken : List Scalar) (R : AliasScope → AliasScope → Prop)
    (q : String → Aliases → Aliases → Prop) : Prop where
  push : ∀ {s s'}, R s s' → R (s.push []) (s'.push [])
  declare : ∀ {s s'} (a name : String), R s s' → Scalar.str a ∉ taken →
    R (s.declare (.str a) name) (s'.declare (.str a) name)
  bind : ∀ {s s'} (a target : String), R s s' → Scalar.str a ∉ taken →
    R (s.declare (.str a) (s.bound target)) (s'.declare (.str a) (s'.bound target))
  snapshot : ∀ {s s'} (name : String), R s s' → q name s.snapshot s'.snapshot

variable {q : String → Aliases → Aliases → Prop} {c c' : Context} {s s' : AliasScope}
  {name : String}

theorem alike_listDefinition (hc : c.Alike c') (name : String) (depth : Nat) {sample sample' : Json}
    (hsample : sample.Alike sample') :
    (listDefinition c name depth sample).Alike q (listDefinition c' name depth sample') :=
  ⟨rfl, hc.source, rfl, rfl, rfl, hsample⟩

/-- The entries of two maps have the same keys in the same order, and values that are alike. -/
def EntriesAlike (entries entries' : List (Scalar × Json)) : Prop :=
  List.Forall₂ (fun e e' => e'.1 = e.1 ∧ e.2.Alike e'.2) entries entries'

theorem EntriesAlike.refl (entries : List (Scalar × Json)) : EntriesAlike entries entries := by
  rw [EntriesAlike, List.forall₂_same]
  exact fun e _ => ⟨rfl, .refl _⟩

theorem EntriesAlike.keys {entries entries' : List (Scalar × Json)}
    (h : EntriesAlike entries entries') : Assoc.keys entries' = Assoc.keys entries := by
  induction h with
  | nil => rfl
  | cons he _ ih =>
    rw [Assoc.keys] at ih ⊢
    rw [List.map_cons, he.1, ih]
    rfl

theorem EntriesAlike.get? {entries entries' : List (Scalar × Json)}
    (h : EntriesAlike entries entries') (key : Scalar) :
    (Assoc.get? entries key = none ∧ Assoc.get? entries' key = none) ∨
      ∃ v v', Assoc.get? entries key = some v ∧ Assoc.get? entries' key = some v' ∧ v.Alike v' := by
  induction h with
  | nil => exact .inl ⟨rfl, rfl⟩
  | @cons e e' entries entries' he _ ih =>
    rw [Assoc.get?, Assoc.get?, he.1]
    by_cases hkey : (e.1 == key) = true
    · rw [if_pos hkey, if_pos hkey]
      exact .inr ⟨_, _, rfl, rfl, he.2⟩
    · rw [if_neg hkey, if_neg hkey]
      exact ih

theorem isNull_of_alike {v v' : Json} (h : v.Alike v') : v'.isNull = v.isNull := by
  cases v <;> cases v' <;> try exact h.elim
  · obtain rfl := h
    rfl
  · rfl
  · rfl

theorem EntriesAlike.value?_isSome {entries entries' : List (Scalar × Json)}
    (h : EntriesAlike entries entries') (marker : Option Scalar) :
    (Markers.value? marker entries').isSome = (Markers.value? marker entries).isSome := by
  cases marker with
  | none => rfl
  | some key =>
    rw [Markers.value?, Markers.value?, Option.bind_some, Option.bind_some]
    rcases h.get? key with ⟨hnone, hnone'⟩ | ⟨v, v', hv, hv', halike⟩
    · rw [hnone, hnone']
    · rw [hv, hv', Option.filter_some, Option.filter_some, isNull_of_alike halike]
      split <;> rfl

theorem fieldNames_alike (hc : c.Alike c') {entries entries' : List (Scalar × Json)}
    (h : EntriesAlike entries entries') : fieldNames c' entries' = fieldNames c entries := by
  rw [fieldNames, fieldNames, h.keys, hc.markers]

theorem fieldsOf_alike (hc : c.Alike c') {entries entries' : List (Scalar × Json)}
    (h : EntriesAlike entries entries') :
    List.Forall₂ Field.Alike (fieldsOf c entries) (fieldsOf c' entries') := by
  rw [fieldsOf, fieldsOf, fieldNames_alike hc h, hc.markers]
  generalize fieldNames c entries = names
  induction h with
  | nil => exact .nil
  | @cons e e' entries entries' he _ ih =>
    rw [List.filter_cons, List.filter_cons, he.1]
    split
    · refine .cons ⟨?_, ?_, he.2⟩ ih
      · exact he.1
      · simp only [he.1]
    · exact ih

theorem alike_struct (name : String) (hc : c.Alike c') {entries entries' : List (Scalar × Json)}
    (h : EntriesAlike entries entries') {aliases aliases' : Aliases}
    (hq : q name aliases aliases') :
    Definition.Alike q
      { name, source := c.source, shape := .struct (fieldsOf c entries) aliases }
      { name, source := c'.source, shape := .struct (fieldsOf c' entries') aliases' } :=
  ⟨rfl, hc.source, rfl, rfl, fieldsOf_alike hc h, hq⟩

variable {taken : List Scalar} {R : AliasScope → AliasScope → Prop}

theorem alike_assembleMap (hsim : Simulates taken R q) (hc : c.Alike c') (hR : R s s')
    {entries : List (Scalar × Json)} {marked marked' : List Definition}
    {aliases aliases' : AliasScope → List Definition × AliasScope}
    {fields fields' : NameTable → AliasScope → List Definition}
    (hmarked : List.Forall₂ (Definition.Alike q) marked marked')
    (haliases : ∀ {s s'}, R s s' → List.Forall₂ (Definition.Alike q) (aliases s).1 (aliases' s').1 ∧
      R (aliases s).2 (aliases' s').2)
    (hfields : ∀ {s s'} names, R s s' →
      List.Forall₂ (Definition.Alike q) (fields names s) (fields' names s')) :
    List.Forall₂ (Definition.Alike q) (assembleMap c s name entries marked aliases fields)
      (assembleMap c' s' name entries marked' aliases' fields') := by
  rw [assembleMap, assembleMap, hc.markers]
  cases Markers.value? c.markers.enumKey entries with
  | some literals => exact .cons ⟨rfl, hc.source, rfl, rfl, rfl⟩ .nil
  | none =>
    simp only []
    split
    · exact hmarked
    · obtain ⟨hown, hinside⟩ := haliases (hsim.push hR)
      have hentries := EntriesAlike.refl entries
      rw [fieldNames_alike hc hentries]
      refine List.rel_append (List.rel_append hown (hfields _ hinside)) (.cons ?_ .nil)
      exact alike_struct name hc hentries (hsim.snapshot name hinside)

theorem Context.Alike.inside (hc : c.Alike c') (key : Scalar) :
    (c.inside key).Alike (c'.inside key) := ⟨hc.source, hc.markers⟩

theorem Context.Alike.sample (hc : c.Alike c') (key : Scalar) (v v' : Json) :
    (c.sample key v).Alike (c'.sample key v') := ⟨hc.source, hc.markers⟩

theorem Context.Alike.keeping (hc : c.Alike c') (v v' : Json) :
    (c.keeping v).Alike (c'.keeping v') := ⟨hc.source, hc.markers⟩

mutual
theorem alike_ofValue {c c' : Context} {s s' : AliasScope}
    (hsim : Simulates taken R q) (hc : c.Alike c') (hR : R s s') (name : String) :
    (v : Json) → Undeclared c.markers taken v →
      List.Forall₂ (Definition.Alike q) (ofValue c s name v) (ofValue c' s' name v)
  | .scalar _, _ => by
    rw [ofValue, ofValue]
    exact .nil
  | .list items, .list parts => by
    rw [ofValue, ofValue]
    exact alike_ofItems hsim hc hR name 0 items parts
  | .map entries, .map names parts blocks => by
    rw [ofValue, ofValue]
    exact alike_assembleMap hsim hc hR (alike_ofMarked hsim hc hR name entries parts)
      (fun hR => alike_ofAliases hsim hc hR name entries parts blocks)
      (fun table hR => alike_ofFields hsim hc hR name table entries parts)
theorem alike_ofItems {c c' : Context} {s s' : AliasScope}
    (hsim : Simulates taken R q) (hc : c.Alike c') (hR : R s s') (name : String)
    (depth : Nat) : (items : List Json) → (∀ x ∈ items, Undeclared c.markers taken x) →
      List.Forall₂ (Definition.Alike q) (ofItems c s name depth items) (ofItems c' s' name depth items)
  | [], _ => by
    rw [ofItems, ofItems]
    exact .cons (alike_listDefinition hc name depth (.refl _)) .nil
  | first :: _, parts => by
    rw [ofItems, ofItems]
    exact alike_ofElement hsim (hc.inside _) hR name (depth + 1) first (parts first List.mem_cons_self)
theorem alike_ofElement {c c' : Context} {s s' : AliasScope}
    (hsim : Simulates taken R q) (hc : c.Alike c') (hR : R s s') (name : String)
    (depth : Nat) : (v : Json) → Undeclared c.markers taken v →
      List.Forall₂ (Definition.Alike q) (ofElement c s name depth v) (ofElement c' s' name depth v)
  | .scalar _, _ => by
    rw [ofElement, ofElement]
    exact .cons (alike_listDefinition hc name depth (.refl _)) .nil
  | .list items, .list parts => by
    rw [ofElement, ofElement]
    exact alike_ofItems hsim hc hR name depth items parts
  | .map entries, .map names parts blocks => by
    rw [ofElement, ofElement]
    have hc' := hc.keeping (.map entries) (.map entries)
    refine List.rel_append ?_ (.cons (alike_listDefinition hc' name depth (.refl _)) .nil)
    exact alike_assembleMap hsim hc' hR
      (alike_ofMarked hsim hc' hR (elementName name) entries parts)
      (fun hR => alike_ofAliases hsim hc' hR (elementName name) entries parts blocks)
      (fun table hR => alike_ofFields hsim hc' hR (elementName name) table entries parts)
theorem alike_ofMarked {c c' : Context} {s s' : AliasScope}
    (hsim : Simulates taken R q) (hc : c.Alike c') (hR : R s s') (name : String) :
    (entries : List (Scalar × Json)) → (∀ e ∈ entries, Undeclared c.markers taken e.2) →
      List.Forall₂ (Definition.Alike q) (ofMarked c s name entries) (ofMarked c' s' name entries)
  | [], _ => by
    rw [ofMarked, ofMarked]
    exact .nil
  | (key, v) :: rest, parts => by
    obtain ⟨hv, hrest⟩ := List.forall_mem_cons.mp parts
    rw [ofMarked, ofMarked, hc.markers]
    split
    · exact alike_ofValue hsim (hc.inside key) hR name v hv
    · exact alike_ofMarked hsim hc hR name rest hrest
theorem alike_ofFields {c c' : Context} {s s' : AliasScope}
    (hsim : Simulates taken R q) (hc : c.Alike c') (hR : R s s') (name : String)
    (table : NameTable) : (entries : List (Scalar × Json)) →
      (∀ e ∈ entries, Undeclared c.markers taken e.2) →
      List.Forall₂ (Definition.Alike q) (ofFields c s name table entries)
        (ofFields c' s' name table entries)
  | [], _ => by
    rw [ofFields, ofFields]
    exact .nil
  | (key, v) :: rest, parts => by
    obtain ⟨hv, hrest⟩ := List.forall_mem_cons.mp parts
    rw [ofFields, ofFields, hc.markers]
    refine List.rel_append ?_ (alike_ofFields hsim hc hR name table rest hrest)
    split
    · exact alike_ofValue hsim (hc.sample key v v) hR _ v hv
    · exact .nil
theorem alike_ofAliases {c c' : Context} {s s' : AliasScope}
    (hsim : Simulates taken R q) (hc : c.Alike c') (hR : R s s') (name : String) :
    (entries : List (Scalar × Json)) → (∀ e ∈ entries, Undeclared c.markers taken e.2) →
      (∀ e ∈ entries, (c.markers.aliasesKey.any fun a => e.1 == a) = true →
        ∀ block, e.2 = .map block → ∀ x ∈ block, x.1 ∉ taken) →
      List.Forall₂ (Definition.Alike q) (ofAliases c s name entries).1 (ofAliases c' s' name entries).1 ∧
        R (ofAliases c s name entries).2 (ofAliases c' s' name entries).2
  | [], _, _ => by
    rw [ofAliases, ofAliases]
    exact ⟨.nil, hR⟩
  | (key, v) :: rest, parts, blocks => by
    obtain ⟨hv, hrest⟩ := List.forall_mem_cons.mp parts
    obtain ⟨hblock, hblocks⟩ := List.forall_mem_cons.mp blocks
    rw [ofAliases, ofAliases, hc.markers]
    split
    · next hkey => exact alike_ofAliasBlock hsim (hc.inside key) hR name v hv (hblock hkey)
    · exact alike_ofAliases hsim hc hR name rest hrest hblocks
theorem alike_ofAliasBlock {c c' : Context} {s s' : AliasScope}
    (hsim : Simulates taken R q) (hc : c.Alike c') (hR : R s s')
    (name : String) : (v : Json) → Undeclared c.markers taken v →
      (∀ block, v = .map block → ∀ x ∈ block, x.1 ∉ taken) →
      List.Forall₂ (Definition.Alike q) (ofAliasBlock c s name v).1 (ofAliasBlock c' s' name v).1 ∧
        R (ofAliasBlock c s name v).2 (ofAliasBlock c' s' name v).2
  | .scalar _, _, _ => by
    rw [ofAliasBlock, ofAliasBlock]
    all_goals first | exact ⟨.nil, hR⟩ | exact nofun
  | .list _, _, _ => by
    rw [ofAliasBlock, ofAliasBlock]
    all_goals first | exact ⟨.nil, hR⟩ | exact nofun
  | .map block, .map names parts _, hblock => by
    rw [ofAliasBlock, ofAliasBlock]
    exact alike_ofAliasEntries hsim hc hR name block names parts (hblock block rfl)
theorem alike_ofAliasEntries {c c' : Context} {s s' : AliasScope}
    (hsim : Simulates taken R q) (hc : c.Alike c') (hR : R s s')
    (name : String) : (entries : List (Scalar × Json)) → (∀ e ∈ entries, ∃ a, e.1 = .str a) →
      (∀ e ∈ entries, Undeclared c.markers taken e.2) → (∀ e ∈ entries, e.1 ∉ taken) →
      List.Forall₂ (Definition.Alike q) (ofAliasEntries c s name entries).1
        (ofAliasEntries c' s' name entries).1 ∧
        R (ofAliasEntries c s name entries).2 (ofAliasEntries c' s' name entries).2
  | [], _, _, _ => by
    rw [ofAliasEntries, ofAliasEntries]
    exact ⟨.nil, hR⟩
  | (key, .scalar x) :: rest, names, parts, hnew => by
    obtain ⟨⟨a, ha⟩, hnames⟩ := List.forall_mem_cons.mp names
    obtain ⟨-, hrest⟩ := List.forall_mem_cons.mp parts
    obtain ⟨hkey, hfree⟩ := List.forall_mem_cons.mp hnew
    obtain rfl : key = .str a := ha
    rw [ofAliasEntries_scalar, ofAliasEntries_scalar]
    exact alike_ofAliasEntries hsim hc (hsim.bind a _ hR hkey) name rest hnames hrest hfree
  | (key, .list items) :: rest, names, parts, hnew => by
    obtain ⟨⟨a, ha⟩, hnames⟩ := List.forall_mem_cons.mp names
    obtain ⟨hv, hrest⟩ := List.forall_mem_cons.mp parts
    obtain ⟨hkey, hfree⟩ := List.forall_mem_cons.mp hnew
    obtain rfl : key = .str a := ha
    have hR' := hsim.declare a (Name.member name (Identifier.ofText (Scalar.str a).plainText)) hR hkey
    obtain ⟨hmore, hafter⟩ := alike_ofAliasEntries hsim hc hR' name rest hnames hrest hfree
    rw [ofAliasEntries, ofAliasEntries]
    · exact ⟨List.rel_append (alike_ofValue hsim (hc.inside _) hR' _ (.list items) hv) hmore, hafter⟩
    all_goals exact nofun
  | (key, .map entries) :: rest, names, parts, hnew => by
    obtain ⟨⟨a, ha⟩, hnames⟩ := List.forall_mem_cons.mp names
    obtain ⟨hv, hrest⟩ := List.forall_mem_cons.mp parts
    obtain ⟨hkey, hfree⟩ := List.forall_mem_cons.mp hnew
    obtain rfl : key = .str a := ha
    have hR' := hsim.declare a (Name.member name (Identifier.ofText (Scalar.str a).plainText)) hR hkey
    obtain ⟨hmore, hafter⟩ := alike_ofAliasEntries hsim hc hR' name rest hnames hrest hfree
    rw [ofAliasEntries, ofAliasEntries]
    · exact ⟨List.rel_append (alike_ofValue hsim (hc.inside _) hR' _ (.map entries) hv) hmore, hafter⟩
    all_goals exact nofun
end

end Inference
end Exemplar
