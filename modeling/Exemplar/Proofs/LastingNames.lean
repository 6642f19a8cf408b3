import Exemplar.Proofs.EqualScalars
import Exemplar.Proofs.LegalNames
import Exemplar.Proofs.OwnPlaces

/-! Names that last. A table of keys and names stays the same in both directions whatever keys are
added to it in whatever style, gives names that are legal, and never changes one. So no property is
called like a method of its model. -/
namespace Exemplar
open Identifier

/-- The name, or the first of its numbered forms, that is not taken: `p` is not, all before it are. -/
def IsFirstFree (name : String) (taken : List String) (p : String) : Prop :=
  p ∉ taken ∧ (p = name ∨ name ∈ taken ∧ ∃ n ≥ 2, p = numberedName name n ∧
    ∀ i, 2 ≤ i → i < n → numberedName name i ∈ taken)

/-- Where the search ends, everything before is taken. -/
theorem exists_firstFreeName (name : String) (taken : List String) (tries number : Nat) :
    ∃ n ≥ number, firstFreeName name taken tries number = numberedName name n ∧
      ∀ i, number ≤ i → i < n → numberedName name i ∈ taken := by
  induction tries generalizing number with
  | zero => exact ⟨number, le_rfl, rfl, fun i hi hlt => absurd hlt (Nat.not_lt.mpr hi)⟩
  | succ tries ih =>
    rw [firstFreeName]
    split_ifs with hfirst
    · obtain ⟨n, hn, heq, hall⟩ := ih (number + 1)
      refine ⟨n, Nat.le_of_succ_le hn, heq, fun i hi hlt => ?_⟩
      rcases Nat.eq_or_lt_of_le hi with rfl | hi
      · simpa using hfirst
      · exact hall i hi hlt
    · exact ⟨number, le_rfl, rfl, fun i hi hlt => absurd hlt (Nat.not_lt.mpr hi)⟩

theorem isFirstFree_freeName (name : String) (taken : List String) :
    IsFirstFree name taken (freeName name taken) := by
  refine ⟨freeName_not_mem name taken, ?_⟩
  rw [freeName]
  split_ifs with htaken
  · exact .inr ⟨by simpa using htaken, exists_firstFreeName name taken _ 2⟩
  · exact .inl rfl

/-- The free form of a legal name is legal too. -/
theorem IsFirstFree.isLegal {name : String} {taken : List String} {p : String}
    (h : IsFirstFree name taken p) (hname : IsLegal name) : IsLegal p := by
  rcases h.2 with rfl | ⟨-, n, -, rfl, -⟩
  · exact hname
  · exact hname.numbered n

/-- What a key is given a name for: as a property, or as the code of a literal. -/
inductive NameStyle where
  | property
  | code

def NameStyle.convert : NameStyle → String → String
  | .property => ofText
  | .code => codeOfText

theorem NameStyle.isLegal (style : NameStyle) (text : String) : IsLegal (style.convert text) := by
  cases style with
  | property => exact isLegal_ofText text
  | code => exact isLegal_codeOfText text

theorem Scalar.eq_str_of_same {k : Scalar} {s : String} (h : (k == .str s) = true) : k = .str s := by
  change same k (.str s) = true at h
  cases k with
  | str a => simpa [same] using h
  | _ => simp [same] at h

namespace NameTable

def addAll (t : NameTable) (steps : List (Scalar × NameStyle)) : NameTable :=
  steps.foldl (fun t step => t.add step.2.convert step.1) t

/-- A table that names different keys by different legal names and says the same in both
directions. -/
structure Sound (t : NameTable) : Prop where
  mirrored : t.keys = t.names.map Prod.swap
  apart : t.names.Pairwise fun e e' => (e.1 == e'.1) = false
  once : (t.names.map Prod.snd).Nodup
  legal : ∀ e ∈ t.names, IsLegal e.2

theorem sound_empty : empty.Sound := ⟨rfl, .nil, List.nodup_nil, nofun⟩

variable {t : NameTable} {key : Scalar} {style : NameStyle}

theorem Sound.names (h : t.Sound) : t.Names (Assoc.keys t.names) :=
  ⟨rfl, h.mirrored, h.once, fun e he => (h.legal e he).word⟩

theorem contains_eq (t : NameTable) (key : Scalar) : t.contains key = (t.name? key).isSome := rfl

/-- A key that has a name changes nothing. -/
theorem add_old (h : t.contains key = true) (convert : String → String) :
    t.add convert key = t := if_pos h

/-- A key without a name is named last, by the first free form of what it is converted to. -/
theorem add_new (h : t.contains key = false) (convert : String → String) :
    (t.add convert key).names =
      t.names ++ [(key, freeName (convert key.plainText) t.properties)] := by
  have habsent : Assoc.get? t.names key = none := by simpa [contains, Assoc.has] using h
  rw [add, h, if_neg Bool.false_ne_true]
  exact Assoc.insert_new (Assoc.get?_none.mp habsent) _

theorem Sound.add (h : t.Sound) (key : Scalar) (style : NameStyle) :
    (t.add style.convert key).Sound := by
  cases hcontains : t.contains key with
  | true => rwa [add_old hcontains]
  | false =>
    have habsent : Assoc.get? t.names key = none := by
      simpa [contains, Assoc.has] using hcontains
    have hnew : ∀ e ∈ t.names, (e.1 == key) = false := Assoc.get?_none.mp habsent
    have hother : ∀ k ∈ Assoc.keys t.names, (k == key) = false := by
      intro k hk
      obtain ⟨e, he, rfl⟩ := List.mem_map.mp hk
      exact hnew e he
    have hnames := h.names.add (fun s => (style.isLegal s).word) hother
    refine ⟨hnames.mirrored, ?_, hnames.once, ?_⟩
    · rw [add_new hcontains]
      exact List.pairwise_append.mpr ⟨h.apart, List.pairwise_singleton _ _,
        fun e he e' he' => by rw [List.mem_singleton.mp he']; exact hnew e he⟩
    · rw [add_new hcontains]
      intro e he
      rcases List.mem_append.mp he with he | he
      · exact h.legal e he
      · rw [List.mem_singleton.mp he]
        exact (isFirstFree_freeName _ _).isLegal (style.isLegal _)

theorem Sound.addAll (h : t.Sound) (steps : List (Scalar × NameStyle)) :
    (t.addAll steps).Sound := by
  induction steps generalizing t with
  | nil => exact h
  | cons step steps ih => exact ih (h.add step.1 step.2)

/-- Keys have the names under which they are recorded. -/
theorem Sound.name?_iff (h : t.Sound) {k : Scalar} {p : String} :
    t.name? k = some p ↔ ∃ k', (k', p) ∈ t.names ∧ (k' == k) = true :=
  ⟨Assoc.get?_mem, fun ⟨_, hmem, hk⟩ => Assoc.get?_of_apart h.apart hmem hk⟩

theorem Sound.key?_iff (h : t.Sound) {k : Scalar} {p : String} :
    t.key? p = some k ↔ (k, p) ∈ t.names := by
  have honce : (Assoc.keys t.keys).Nodup := by
    have hkeys : Assoc.keys t.keys = t.names.map Prod.snd := by
      rw [h.mirrored, Assoc.keys, List.map_map]
      rfl
    rw [hkeys]
    exact h.once
  have hmirror : (p, k) ∈ t.keys ↔ (k, p) ∈ t.names := by
    rw [h.mirrored, List.mem_map]
    constructor
    · rintro ⟨e, he, heq⟩
      rwa [← Prod.swap_swap e, heq] at he
    · intro he
      exact ⟨_, he, rfl⟩
  rw [← hmirror]
  constructor
  · intro hget
    obtain ⟨p', hmem, hp⟩ := Assoc.get?_mem hget
    rwa [eq_of_beq hp] at hmem
  · exact Assoc.get?_of_mem honce

/-- What keys and names give each other is the same in both directions, up to comparison of keys. -/
theorem Sound.inverse (h : t.Sound) (k : Scalar) (p : String) :
    t.name? k = some p ↔ ∃ k', t.key? p = some k' ∧ (k' == k) = true := by
  simp only [h.name?_iff, h.key?_iff]

/-- Keys of one name compare equal. -/
theorem Sound.distinct (h : t.Sound) {k k' : Scalar} {p : String} (hk : t.name? k = some p)
    (hk' : t.name? k' = some p) : (k == k') = true := by
  obtain ⟨k₁, hget₁, h₁⟩ := (h.inverse k p).mp hk
  obtain ⟨k₂, hget₂, h₂⟩ := (h.inverse k' p).mp hk'
  obtain rfl : k₁ = k₂ := Option.some.inj (hget₁.symm.trans hget₂)
  exact BEq.trans (BEq.symm h₁) h₂

theorem Sound.isLegal (h : t.Sound) {k : Scalar} {p : String} (hk : t.name? k = some p) :
    IsLegal p := by
  obtain ⟨k', hmem, -⟩ := h.name?_iff.mp hk
  exact h.legal _ hmem

/-- A key gets the first free form of what it is converted to, unless it has a name. -/
theorem Sound.name?_add (h : t.Sound) (hkey : (key == key) = true) :
    ∃ p, (t.add style.convert key).name? key = some p ∧ (t.name? key = some p ∨
      t.name? key = none ∧ IsFirstFree (style.convert key.plainText) t.properties p) := by
  cases hname : t.name? key with
  | some p =>
    have hcontains : t.contains key = true := by rw [contains_eq, hname]; rfl
    exact ⟨p, by rwa [add_old hcontains], .inl rfl⟩
  | none =>
    have hcontains : t.contains key = false := by rw [contains_eq, hname]; rfl
    refine ⟨_, (h.add key style).name?_iff.mpr ⟨key, ?_, hkey⟩, .inr ⟨rfl, isFirstFree_freeName _ _⟩⟩
    rw [add_new hcontains]
    exact List.mem_append_right _ List.mem_cons_self

/-- Names stay when keys are added. -/
theorem Sound.name?_addAll (h : t.Sound) {k : Scalar} {p : String} (hk : t.name? k = some p)
    (steps : List (Scalar × NameStyle)) : (t.addAll steps).name? k = some p := by
  induction steps generalizing t with
  | nil => exact hk
  | cons step steps ih =>
    refine ih (h.add step.1 step.2) ?_
    cases hcontains : t.contains step.1 with
    | true => exact (congrArg (name? · k) (add_old hcontains _)).trans hk
    | false =>
      obtain ⟨k', hmem, hk'⟩ := h.name?_iff.mp hk
      refine (h.add step.1 step.2).name?_iff.mpr ⟨k', ?_, hk'⟩
      rw [add_new hcontains]
      exact List.mem_append_left _ hmem

theorem addAll_properties (keys : List Scalar) :
    empty.addAll (keys.map fun k => (k, .property)) = ofKeys ofText keys := by
  rw [addAll, List.foldl_map]
  rfl

/-- What a table of keys and names promises, whatever is added to it: both directions say the same,
different keys have different names, the names are legal, a key that is added gets its first free
name, and no key ever changes its name. -/
structure Lasting (t : NameTable) : Prop where
  inverse (k : Scalar) (p : String) :
    t.name? k = some p ↔ ∃ k', t.key? p = some k' ∧ (k' == k) = true
  exact (s p : String) : t.name? (.str s) = some p ↔ t.key? p = some (.str s)
  distinct (k k' : Scalar) (p : String) :
    t.name? k = some p → t.name? k' = some p → (k == k') = true
  legal (k : Scalar) (p : String) : t.name? k = some p → IsLegal p
  added (k : Scalar) (style : NameStyle) : (k == k) = true →
    ∃ p, (t.add style.convert k).name? k = some p ∧ (t.name? k = some p ∨
      t.name? k = none ∧ IsFirstFree (style.convert k.plainText) t.properties p)
  stable (k : Scalar) (p : String) (later : List (Scalar × NameStyle)) :
    t.name? k = some p → (t.addAll later).name? k = some p

theorem Sound.lasting (h : t.Sound) : t.Lasting where
  inverse := h.inverse
  exact s p := by
    rw [h.inverse]
    constructor
    · rintro ⟨k', hget, hk'⟩
      rwa [Scalar.eq_str_of_same hk'] at hget
    · intro hget
      exact ⟨_, hget, beq_self_eq_true s⟩
  distinct _ _ _ := h.distinct
  legal _ _ := h.isLegal
  added _ _ := h.name?_add
  stable _ _ later hk := h.name?_addAll hk later

end NameTable

namespace Registry

/-- The methods of models have names that properties give way to. -/
theorem taken_operation (o : Operation) : isTaken o.name = true := by
  cases o <;> decide +kernel

/-- No property of a struct is called like a method. -/
theorem property_ne_method {options : Options} {docs : List Document} {name : String}
    {d : Definition} (hget : (ofDocuments options docs).get? name = some d) {f : Field}
    (hf : f ∈ d.fields) (o : Operation) : f.property ≠ o.name := by
  rcases exists_fieldsOf hget with hnone | ⟨doc, -, c, entries, struct, -, heq⟩
  · rw [hnone] at hf
    cases hf
  · rw [heq] at hf
    obtain ⟨g, hg, rfl⟩ := List.mem_map.mp hf
    obtain ⟨⟨key, sample⟩, -, rfl⟩ := List.mem_map.mp hg
    change ((Inference.fieldNames c entries).name? key).getD "" ≠ o.name
    cases hname : (Inference.fieldNames c entries).name? key with
    | none => cases o <;> decide
    | some p =>
      rw [Inference.fieldNames, ← NameTable.addAll_properties] at hname
      have hlegal := (NameTable.sound_empty.addAll _).isLegal hname
      rintro rfl
      exact absurd (taken_operation o) (by rw [hlegal.free]; decide)

/-- The properties of the model of a struct are those of its fields. -/
theorem exists_field {r : Registry} {d : Definition} {m : Model} (hkind : d.kind = .struct)
    (hmodel : r.model? d = some m) {p : Property} (hp : p ∈ m.properties) :
    ∃ f ∈ d.fields, p = ⟨f.property, f.type, .entry f⟩ := by
  cases hshape : d.shape with
  | struct fields aliases =>
    have hfields : d.fields = fields := by rw [Definition.fields, hshape]
    rw [model?, hshape] at hmodel
    obtain rfl := Option.some.inj hmodel
    obtain ⟨f, hf, rfl⟩ := List.mem_map.mp hp
    exact ⟨f, hfields ▸ hf, rfl⟩
  | enum values origin =>
    rw [Definition.kind, hshape] at hkind
    cases hkind
  | list depth sample element =>
    rw [Definition.kind, hshape] at hkind
    cases hkind

/-- Tables keep their promises after any number of keys. For the fields of a struct they promise that
no property is called like a method. -/
theorem lasting_addAll (steps : List (Scalar × NameStyle)) :
    (NameTable.empty.addAll steps).Lasting ∧
      ∀ options docs name d m, (ofDocuments options docs).get? name = some d → d.kind = .struct →
        (ofDocuments options docs).model? d = some m →
        ∀ p ∈ m.properties, ∀ f ∈ m.methods, p.name ≠ f.operation.name := by
  refine ⟨(NameTable.sound_empty.addAll steps).lasting, ?_⟩
  intro options docs name d m hget hkind hmodel p hp method _
  obtain ⟨f, hf, rfl⟩ := exists_field hkind hmodel hp
  exact property_ne_method hget hf method.operation

/-- Four keys of one text, and a key that is spelled like the name of another. -/
def likeNamedKeys : List (Scalar × NameStyle) :=
  [(.str "a-b", .property), (.str "a_b", .property), (.str "a b", .code), (.str "a_b_2", .property),
    (.str "class", .property), (.str "get", .property), (.str "A B", .code)]

/-- The names of these keys are all different and legal, and stay when more keys come. -/
theorem lasting_likeNamedKeys :
    (NameTable.empty.addAll likeNamedKeys).properties =
      ["a_b", "a_b_2", "A_B", "a_b_2_2", "class_", "get_", "A_B_2"] ∧
    (∀ later, ((NameTable.empty.addAll likeNamedKeys).addAll later).name? (.str "a_b_2") =
      some "a_b_2_2") ∧ IsLegal "a_b_2_2" := by
  have hname : (NameTable.empty.addAll likeNamedKeys).name? (.str "a_b_2") = some "a_b_2_2" := by
    decide +kernel
  have hlasting := (lasting_addAll likeNamedKeys).1
  exact ⟨by decide +kernel, fun later => hlasting.stable _ _ later hname, hlasting.legal _ _ hname⟩

end Registry
end Exemplar
