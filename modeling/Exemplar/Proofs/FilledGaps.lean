import Exemplar.Proofs.Composing
import Exemplar.Proofs.EnumReads

/-! Reads of properties fill gaps. Whatever properties of an instance are read, its entries stay as
they are, and those that create something and have no entry get one each, which later reads give.
The order of the reads decides about the order of the new entries only. -/
namespace Exemplar

def Store.nodeOf? (s : Store) : Value → Option Node
  | .node r => s.get? r
  | _ => none

namespace Workshop
open Store StoreM Registry

/-- What reading properties of an instance one after the other gives, and the store behind it. A read
that fails does not keep from the others. -/
def readEach (w : Workshop) (d : Definition) (m : Ref) :
    List Property → Store → List (Except StoreFault Value) × Store
  | [], s => ([], s)
  | p :: ps, s =>
    let (outcome, s') := (w.readProperty d p (.node m)).run s
    let (outcomes, s'') := readEach w d m ps s'
    (outcome :: outcomes, s'')

variable {w : Workshop} {d : Definition} {f : Field} {s s' s₁ s₂ : Store} {m : Ref} {n made : Node}
  {es new more : Assoc Scalar Value} {v : Value} {ps qs : List Property}

/-- Properties give their entries as they are, but for the members of an enum. -/
theorem run_readProperty (hread : (w.readEntry f (.node m)).run s = (.ok v, s'))
    (hplain : w.classes = false ∨ w.enumOf? f.type = none) :
    (w.readProperty d (entryProperty f) (.node m)).run s = (.ok v, s') := by
  rw [readProperty, entryProperty, run_bind hread]
  rcases hplain with hclasses | hnone
  · have henum (e : Definition) : (w.enumValue e v).run s' = (.ok v, s') := by
      rw [enumValue, hclasses]
      rfl
    split
    · rfl
    · exact henum _
    · rfl
  · rw [hnone]
    rfl

/-- Looking for the member of an entry leaves all containers alone. -/
theorem extends_readProperty (hread : (w.readEntry f (.node m)).run s = (.ok v, s)) :
    Extends s.nodes.size s ((w.readProperty d (entryProperty f) (.node m)).run s).2 := by
  rw [readProperty, entryProperty, run_bind hread]
  simp only []
  split
  · exact .refl _ s
  · exact ((w.ends_enumValue _ _ (Nat.le_refl _)).imp (fun _ _ h => h.1) fun _ _ h => h).store
  · exact .refl _ s

/-- Reads of properties filled gaps of an instance: behind its entries there are new ones for the
properties that create something and had no entry, each with a new empty container of its own that is
linked to the instance, and no other container changed. -/
structure FillsGaps (w : Workshop) (s : Store) (m : Ref) (n : Node) (es : Assoc Scalar Value)
    (ps : List Property) (new : Assoc Scalar Value) (s' : Store) : Prop where
  holder : s'.get? m = some { n with body := .map (es ++ new) }
  others : ∀ r q, r ≠ m → s.get? r = some q → s'.get? r = some q
  grown : s.nodes.size ≤ s'.nodes.size
  apart : new.Pairwise fun e e' => e.1 ≠ e'.1 ∧ e.2 ≠ e'.2
  gaps : ∀ k, k ∈ Assoc.keys new ↔
    ∃ p ∈ ps, p.key? = some k ∧ p.autocreate ≠ .none ∧ es.get? k = none
  created : ∀ e ∈ new, ∃ p ∈ ps, ∃ r made, p.key? = some e.1 ∧ e.2 = .node r ∧
    s.nodes.size ≤ r ∧ w.Creates p.type made ∧
    p.autocreate = (if made.isMap then .map else .list) ∧
    s'.get? r = some { made with parent := some m }

/-- A property that creates something, or whose entry is not looked up among members, gives its entry
or null. -/
def GivesEntry (w : Workshop) (es : Assoc Scalar Value) (outcome : Except StoreFault Value)
    (p : Property) : Prop :=
  p.autocreate ≠ .none ∨ w.classes = false → outcome = .ok ((p.key?.bind es.get?).getD .null)

/-- A read of the field creates nothing. -/
def Settled (f : Field) (es : Assoc Scalar Value) : Prop :=
  f.autocreate = .none ∨ (es.get? f.key).isSome = true

namespace FillsGaps

theorem refl (hm : s.get? m = some n) (hbody : n.body = .map es) : w.FillsGaps s m n es [] [] s where
  holder := by rw [hm, List.append_nil, ← hbody]
  others _ _ _ hr := hr
  grown := Nat.le_refl _
  apart := .nil
  gaps := by simp [Assoc.keys]
  created := by simp

/-- A gap is none for the entries that are there. -/
theorem apart_snoc (h : w.FillsGaps s m n es ps new s₁) {k : Scalar} (hkey : (k == k) = true)
    (habsent : (es ++ new).get? k = none) :
    (new ++ [(k, Value.node s₁.nodes.size)]).Pairwise fun e e' => e.1 ≠ e'.1 ∧ e.2 ≠ e'.2 := by
  refine List.pairwise_append.mpr ⟨h.apart, List.pairwise_singleton _ _, fun e he e' he' => ?_⟩
  obtain rfl := List.mem_singleton.mp he'
  constructor
  · intro heq
    have hdifferent := Assoc.get?_none.mp habsent e (List.mem_append_right es he)
    rw [heq, hkey] at hdifferent
    cases hdifferent
  · intro heq
    obtain ⟨p, -, r, q, -, hr, -, -, -, hfound⟩ := h.created e he
    obtain rfl := Value.node.inj (hr.symm.trans heq)
    exact Nat.lt_irrefl _ (get?_lt hfound)

/-- With a property that creates something and has no entry, there is a gap more. -/
theorem gaps_snoc (h : w.FillsGaps s m n es ps new s₁) (hpolicy : f.autocreate ≠ .none)
    (habsent : es.get? f.key = none) (v : Value) (k : Scalar) :
    k ∈ Assoc.keys (new ++ [(f.key, v)]) ↔
      ∃ p ∈ ps ++ [entryProperty f], p.key? = some k ∧ p.autocreate ≠ .none ∧
        es.get? k = none := by
  rw [Assoc.keys, List.map_append, List.mem_append]
  constructor
  · rintro (hk | hk)
    · obtain ⟨p, hp, hrest⟩ := (h.gaps k).mp hk
      exact ⟨p, List.mem_append_left _ hp, hrest⟩
    · obtain rfl := List.mem_singleton.mp hk
      exact ⟨_, List.mem_append_right ps (List.mem_singleton_self _), rfl, hpolicy, habsent⟩
  · rintro ⟨p, hp, hkey, hrest⟩
    rcases List.mem_append.mp hp with hp | hp
    · exact .inl ((h.gaps k).mpr ⟨p, hp, hkey, hrest⟩)
    · obtain rfl := List.mem_singleton.mp hp
      exact .inr (List.mem_singleton.mpr (Option.some.inj hkey).symm)

/-- The gap of a property was filled. -/
theorem filled (hkeyed : d.Keyed) (h : w.FillsGaps s m n es ps new s₁) (hm : s.get? m = some n)
    (hf : f ∈ d.fields) (hmade : w.Creates f.type made)
    (hpolicy : f.autocreate = if made.isMap then .map else .list)
    (habsent : (es ++ new).get? f.key = none)
    (hcreated : Created s₁ m { n with body := .map (es ++ new) } (es ++ new) f.key made s₂) :
    w.FillsGaps s m n es (ps ++ [entryProperty f]) (new ++ [(f.key, .node s₁.nodes.size)]) s₂ := by
  have hfree : es.get? f.key = none :=
    Assoc.get?_none.mpr fun e he => Assoc.get?_none.mp habsent e (List.mem_append_left new he)
  have hautocreate : f.autocreate ≠ .none := by
    rw [hpolicy]
    split <;> exact nofun
  have hkeep {r : Ref} {q : Node} (hne : r ≠ m) (hr : s₁.get? r = some q) : s₂.get? r = some q := by
    rw [hcreated.others r (get?_lt hr) hne, hr]
  refine ⟨?_, fun r q hne hr => hkeep hne (h.others r q hne hr), ?_,
    h.apart_snoc (hkeyed.same_key hf) habsent, h.gaps_snoc hautocreate hfree _, fun e he => ?_⟩
  · rw [hcreated.holder, List.append_assoc]
  · rw [hcreated.size]
    exact Nat.le_succ_of_le h.grown
  · rcases List.mem_append.mp he with he | he
    · obtain ⟨p, hp, r, q, hpkey, hr, hle, hq, hpolicy, hfound⟩ := h.created e he
      have hne : r ≠ m := Nat.ne_of_gt (Nat.lt_of_lt_of_le (get?_lt hm) hle)
      exact ⟨p, List.mem_append_left _ hp, r, q, hpkey, hr, hle, hq, hpolicy, hkeep hne hfound⟩
    · obtain rfl := List.mem_singleton.mp he
      exact ⟨_, List.mem_append_right ps (List.mem_singleton_self _), s₁.nodes.size, made, rfl, rfl,
        h.grown, hmade, hpolicy, hcreated.made⟩

section

variable (hkeyed : d.Keyed) (hps : ∀ p ∈ ps, ∃ f ∈ d.fields, p = entryProperty f)
include hkeyed hps

/-- A new entry under the key of a field was created for that field. -/
theorem of_key (h : w.FillsGaps s m n es ps new s₁) (hf : f ∈ d.fields) {e : Scalar × Value}
    (he : e ∈ new) (hkey : (e.1 == f.key) = true) : e.1 = f.key ∧ f.autocreate ≠ .none := by
  obtain ⟨p, hp, hpkey, hpolicy, -⟩ := (h.gaps e.1).mp (List.mem_map_of_mem he)
  obtain ⟨g, hg, rfl⟩ := hps p hp
  have hgkey : g.key = e.1 := Option.some.inj hpkey
  rw [← hgkey] at hkey
  obtain rfl := hkeyed.eq_of_key hf hg hkey
  exact ⟨hgkey.symm, hpolicy⟩

/-- Whatever was read is settled. -/
theorem settled (h : w.FillsGaps s m n es ps new s₁) (hp : entryProperty f ∈ ps) :
    Settled f (es ++ new) := by
  obtain ⟨g, hg, heq⟩ := hps _ hp
  obtain rfl : f = g := Access.entry.inj (congrArg Property.access heq)
  by_cases hpolicy : f.autocreate = .none
  · exact .inl hpolicy
  · refine .inr ?_
    cases hget : es.get? f.key with
    | some v => rw [Assoc.get?_append_found hget]; rfl
    | none =>
      obtain ⟨e, he, hkey⟩ := List.mem_map.mp ((h.gaps f.key).mpr ⟨_, hp, rfl, hpolicy, hget⟩)
      rw [Assoc.get?_append hget, Option.isSome_iff_ne_none, ne_eq, Assoc.get?_none]
      intro hno
      have hdifferent := hno e he
      rw [hkey, hkeyed.same_key hg] at hdifferent
      cases hdifferent

/-- What is settled stays as it is while other gaps are filled. -/
theorem get?_later (h : w.FillsGaps s m n es ps (new ++ more) s₁) (hf : f ∈ d.fields)
    (hsettled : Settled f (es ++ new)) :
    (es ++ (new ++ more)).get? f.key = (es ++ new).get? f.key := by
  rw [← List.append_assoc]
  cases hget : (es ++ new).get? f.key with
  | some v => exact Assoc.get?_append_found hget more
  | none =>
    rw [Assoc.get?_append hget, Assoc.get?_none]
    intro e he
    rw [Bool.eq_false_iff]
    intro hkey
    obtain ⟨-, hpolicy⟩ := h.of_key hkeyed hps hf (List.mem_append_right new he) hkey
    rw [Settled, hget] at hsettled
    rcases hsettled with hnone | hsome
    · exact hpolicy hnone
    · cases hsome

/-- A settled property was read. -/
theorem kept (h : w.FillsGaps s m n es ps new s₁) (hf : f ∈ d.fields)
    (hsettled : Settled f (es ++ new)) (hlater : Extends s₁.nodes.size s₁ s₂) :
    w.FillsGaps s m n es (ps ++ [entryProperty f]) new s₂ where
  holder := hlater.found h.holder
  others r q hne hr := hlater.found (h.others r q hne hr)
  grown := Nat.le_trans h.grown hlater.size
  apart := h.apart
  gaps k := by
    rw [h.gaps k]
    constructor
    · rintro ⟨p, hp, hrest⟩
      exact ⟨p, List.mem_append_left _ hp, hrest⟩
    · rintro ⟨p, hp, hkey, hpolicy, habsent⟩
      rcases List.mem_append.mp hp with hp | hp
      · exact ⟨p, hp, hkey, hpolicy, habsent⟩
      · obtain rfl := List.mem_singleton.mp hp
        obtain rfl : f.key = k := Option.some.inj hkey
        have hfound := hsettled.resolve_left hpolicy
        rw [Assoc.get?_append habsent] at hfound
        obtain ⟨v, hv⟩ := Option.isSome_iff_exists.mp hfound
        obtain ⟨k, hmem, hsame⟩ := Assoc.get?_mem hv
        obtain ⟨rfl, -⟩ := h.of_key hkeyed hps hf hmem hsame
        exact (h.gaps f.key).mp (List.mem_map_of_mem hmem)
  created e he := by
    obtain ⟨p, hp, r, made, hkey, hr, hle, hmade, hpolicy, hfound⟩ := h.created e he
    exact ⟨p, List.mem_append_left _ hp, r, made, hkey, hr, hle, hmade, hpolicy,
      hlater.found hfound⟩

end
end FillsGaps

section

variable {options : Options} {docs : List Document} {name : String}
  (hw : w.MakesStructs) (hregistry : w.registry = ofDocuments options docs)
  (hd : w.registry.get? name = some d) (hkeyed : d.Keyed)
include hregistry hd

/-- Members are looked up for fields only that create nothing. -/
theorem enumOf?_field (hf : f ∈ d.fields) (h : f.autocreate ≠ .none ∨ w.classes = false) :
    w.classes = false ∨ w.enumOf? f.type = none := by
  rcases h with hpolicy | hclasses
  · right
    rw [Option.eq_none_iff_forall_ne_some]
    intro e he
    exact hpolicy (autocreate_of_enumOf? hregistry hd hf he)
  · exact .inl hclasses

/-- A settled property gives its entry, and reading it changes nothing. -/
theorem run_readProperty_settled (hf : f ∈ d.fields) (hm : s.get? m = some n)
    (hbody : n.body = .map es) (hsettled : Settled f es)
    (hplain : f.autocreate ≠ .none ∨ w.classes = false) :
    (w.readProperty d (entryProperty f) (.node m)).run s =
      (.ok ((es.get? f.key).getD .null), s) :=
  run_readProperty (run_readEntry_kept hm hbody hsettled) (enumOf?_field hregistry hd hf hplain)

include hw hkeyed

/-- Reading one more property fills its gap, if it has one. -/
theorem FillsGaps.read (hm : s.get? m = some n) (hform : (n.form == .plain) = false)
    (hfree : Assoc.has n.attributes "autocreate" = false)
    (hps : ∀ p ∈ ps, ∃ f ∈ d.fields, p = entryProperty f) (hf : f ∈ d.fields)
    (h : w.FillsGaps s m n es ps new s₁) :
    ∃ more outcome s₂, (w.readProperty d (entryProperty f) (.node m)).run s₁ = (outcome, s₂) ∧
      w.FillsGaps s m n es (ps ++ [entryProperty f]) (new ++ more) s₂ ∧
      w.GivesEntry (es ++ (new ++ more)) outcome (entryProperty f) := by
  by_cases hsettled : Settled f (es ++ new)
  · rcases hrun : (w.readProperty d (entryProperty f) (.node m)).run s₁ with ⟨outcome, s₂⟩
    have hlater : Extends s₁.nodes.size s₁ s₂ := by
      have hlater := extends_readProperty (d := d)
        (run_readEntry_kept (w := w) h.holder rfl hsettled)
      rwa [hrun] at hlater
    refine ⟨[], outcome, s₂, rfl, ?_, fun hplain => ?_⟩
    · rw [List.append_nil]
      exact h.kept hkeyed hps hf hsettled hlater
    · have hgiven := run_readProperty_settled hregistry hd hf h.holder rfl hsettled hplain
      rw [hrun] at hgiven
      rw [List.append_nil]
      exact congrArg Prod.fst hgiven
  · obtain ⟨hpolicy, habsent⟩ : f.autocreate ≠ .none ∧ (es ++ new).get? f.key = none := by
      simpa [Settled] using hsettled
    rcases creates_field hregistry hd hf with ⟨hnone, -⟩ | ⟨made, hmade, hauto⟩
    · exact absurd hnone hpolicy
    · have hkey := hkeyed.same_key hf
      obtain ⟨s₂, hread, hcreated⟩ :=
        run_readEntry_new hw hmade hpolicy hkey h.holder rfl hform hfree habsent
      refine ⟨[(f.key, .node s₁.nodes.size)], .ok (.node s₁.nodes.size), s₂,
        run_readProperty hread (.inr hmade.enumOf?),
        h.filled hkeyed hm hf hmade hauto habsent hcreated, fun _ => ?_⟩
      change _ = Except.ok ((Assoc.get? (es ++ (new ++ _)) f.key).getD .null)
      rw [← List.append_assoc, Assoc.get?_append habsent, Assoc.get?, if_pos hkey]
      rfl

/-- Reads of properties one after the other, by induction on the reads still to come. -/
theorem FillsGaps.readEach (hm : s.get? m = some n) (hform : (n.form == .plain) = false)
    (hfree : Assoc.has n.attributes "autocreate" = false)
    (hps : ∀ p ∈ ps, ∃ f ∈ d.fields, p = entryProperty f)
    (hqs : ∀ p ∈ qs, ∃ f ∈ d.fields, p = entryProperty f)
    (h : w.FillsGaps s m n es ps new s₁) :
    ∃ more outcomes s₂, w.readEach d m qs s₁ = (outcomes, s₂) ∧
      w.FillsGaps s m n es (ps ++ qs) (new ++ more) s₂ ∧
      List.Forall₂ (w.GivesEntry (es ++ (new ++ more))) outcomes qs := by
  induction qs generalizing ps new s₁ with
  | nil =>
    refine ⟨[], [], s₁, rfl, ?_, .nil⟩
    rwa [List.append_nil, List.append_nil]
  | cons p qs ih =>
    obtain ⟨⟨f, hf, rfl⟩, hlater⟩ := List.forall_mem_cons.mp hqs
    obtain ⟨first, outcome, s', hrun, hfirst, hgives⟩ :=
      h.read hw hregistry hd hkeyed hm hform hfree hps hf
    have hps' : ∀ p ∈ ps ++ [entryProperty f], ∃ g ∈ d.fields, p = entryProperty g :=
      List.forall_mem_append.mpr ⟨hps, List.forall_mem_singleton.mpr ⟨f, hf, rfl⟩⟩
    obtain ⟨rest, outcomes, s₂, hrest, hall, hothers⟩ := ih hps' hlater hfirst
    have hread : entryProperty f ∈ ps ++ [entryProperty f] :=
      List.mem_append_right ps (List.mem_singleton_self _)
    have hsame := hall.get?_later hkeyed (List.forall_mem_append.mpr ⟨hps', hlater⟩) hf
      (hfirst.settled hkeyed hps' hread)
    rw [List.append_assoc new, List.append_assoc ps] at hall
    rw [List.append_assoc new] at hothers hsame
    refine ⟨first ++ rest, outcome :: outcomes, s₂, ?_, hall, .cons (fun hplain => ?_) hothers⟩
    · rw [Workshop.readEach, hrun]
      simp only [hrest]
    · rw [hgives hplain]
      change _ = Except.ok ((Assoc.get? (es ++ (new ++ (first ++ rest))) f.key).getD .null)
      rw [hsame]
      rfl

end

/-- The same properties fill the same gaps, whatever the order of the reads. -/
theorem FillsGaps.perm {new' : Assoc Scalar Value} (hkeyed : d.Keyed)
    (hps : ∀ p ∈ ps, ∃ f ∈ d.fields, p = entryProperty f) (hsame : ∀ p, p ∈ qs ↔ p ∈ ps)
    (h : w.FillsGaps s m n es ps new s₁) (h' : w.FillsGaps s m n es qs new' s₂) :
    (new'.map fun e => (e.1, s₂.nodeOf? e.2)).Perm (new.map fun e => (e.1, s₁.nodeOf? e.2)) := by
  have hnodup {new : Assoc Scalar Value} {s' : Store}
      (hapart : new.Pairwise fun e e' => e.1 ≠ e'.1 ∧ e.2 ≠ e'.2) :
      (new.map fun e => (e.1, s'.nodeOf? e.2)).Nodup :=
    List.pairwise_map.mpr (hapart.imp fun hne heq => hne.1 (Prod.mk.inj heq).1)
  have hmem {ps qs : List Property} {new new' : Assoc Scalar Value} {s₁ s₂ : Store}
      (hps : ∀ p ∈ ps, ∃ f ∈ d.fields, p = entryProperty f) (hsame : ∀ p, p ∈ qs ↔ p ∈ ps)
      (h : w.FillsGaps s m n es ps new s₁) (h' : w.FillsGaps s m n es qs new' s₂)
      {x : Scalar × Option Node} (hx : x ∈ new'.map fun e => (e.1, s₂.nodeOf? e.2)) :
      x ∈ new.map fun e => (e.1, s₁.nodeOf? e.2) := by
    obtain ⟨e', he', rfl⟩ := List.mem_map.mp hx
    obtain ⟨p', hp', r', made', hkey', hr', -, hmade', -, hfound'⟩ := h'.created e' he'
    obtain ⟨p, hp, hrest⟩ := (h'.gaps e'.1).mp (List.mem_map_of_mem he')
    obtain ⟨e, he, hkey⟩ := List.mem_map.mp ((h.gaps e'.1).mpr ⟨p, (hsame p).mp hp, hrest⟩)
    obtain ⟨q, hq, r, made, hqkey, hr, -, hmade, -, hfound⟩ := h.created e he
    obtain ⟨f, hf, rfl⟩ := hps p' ((hsame p').mp hp')
    obtain ⟨g, hg, rfl⟩ := hps q hq
    have hkeys : g.key = f.key := by
      rw [Option.some.inj hqkey, Option.some.inj hkey', ← hkey]
    have hfield : (g.key == f.key) = true := by
      rw [hkeys]
      exact hkeyed.same_key hf
    obtain rfl := hkeyed.eq_of_key hf hg hfield
    obtain rfl := hmade.unique hmade'
    refine List.mem_map.mpr ⟨e, he, ?_⟩
    rw [hkey, hr, hr', Store.nodeOf?, Store.nodeOf?, hfound, hfound']
  refine (List.perm_ext_iff_of_nodup (hnodup h'.apart) (hnodup h.apart)).mpr fun x => ⟨?_, ?_⟩
  · exact hmem hps hsame h h'
  · have hqs : ∀ p ∈ qs, ∃ f ∈ d.fields, p = entryProperty f := fun p hp => hps p ((hsame p).mp hp)
    exact hmem hqs (fun p => (hsame p).symm) h' h

/-- Reads of any properties of an instance keep its entries and fill the gaps of these properties:
each property that creates something and has no entry gets a new empty container of its type, linked
to the instance. Each read of such a property gives the container that the instance has for it in the
end, and further reads change nothing. The order of the reads decides about the order of the new
entries only. -/
theorem reads_fill_gaps {options : Options} {docs : List Document} {name : String} {model : Model}
    (hw : w.MakesStructs) (hregistry : w.registry = ofDocuments options docs)
    (hdocs : ∀ doc ∈ docs, ∃ q, doc.value.IsDocument q) (hd : w.registry.get? name = some d)
    (hkind : d.kind = .struct) (hmodel : w.registry.model? d = some model)
    (hm : s.get? m = some n) (hbody : n.body = .map es) (hform : n.form ≠ .plain)
    (hfree : Assoc.has n.attributes "autocreate" = false) (hps : ∀ p ∈ ps, p ∈ model.properties) :
    ∃ outcomes new s', w.readEach d m ps s = (outcomes, s') ∧ w.FillsGaps s m n es ps new s' ∧
      List.Forall₂ (w.GivesEntry (es ++ new)) outcomes ps ∧
      (∀ p ∈ ps, Extends s'.nodes.size s' ((w.readProperty d p (.node m)).run s').2 ∧
        (p.autocreate ≠ .none ∨ w.classes = false → (w.readProperty d p (.node m)).run s' =
          (.ok ((p.key?.bind (es ++ new).get?).getD .null), s'))) ∧
      ∀ qs, (∀ p, p ∈ qs ↔ p ∈ ps) → ∃ outcomes' new' s'', w.readEach d m qs s = (outcomes', s'') ∧
        w.FillsGaps s m n es qs new' s'' ∧
        (new'.map fun e => (e.1, s''.nodeOf? e.2)).Perm
          (new.map fun e => (e.1, s'.nodeOf? e.2)) := by
  have hkeyed : d.Keyed := by
    rw [hregistry] at hd
    exact keyed_ofDocuments hdocs hd
  have hlinked : (n.form == .plain) = false := beq_false_of_ne hform
  have hfields : ∀ p ∈ ps, ∃ f ∈ d.fields, p = entryProperty f :=
    fun p hp => exists_field_of_property hkind hmodel (hps p hp)
  have hreads {qs : List Property} (hqs : ∀ p ∈ qs, ∃ f ∈ d.fields, p = entryProperty f) :
      ∃ new outcomes s', w.readEach d m qs s = (outcomes, s') ∧ w.FillsGaps s m n es qs new s' ∧
        List.Forall₂ (w.GivesEntry (es ++ new)) outcomes qs :=
    (FillsGaps.refl hm hbody).readEach hw hregistry hd hkeyed hm hlinked hfree
      (List.forall_mem_nil _) hqs
  obtain ⟨new, outcomes, s', hrun, hfills, hgives⟩ := hreads hfields
  refine ⟨outcomes, new, s', hrun, hfills, hgives, fun p hp => ?_, fun qs hsame => ?_⟩
  · obtain ⟨f, hf, rfl⟩ := hfields p hp
    have hsettled := hfills.settled hkeyed hfields hp
    exact ⟨extends_readProperty (run_readEntry_kept hfills.holder rfl hsettled),
      run_readProperty_settled hregistry hd hf hfills.holder rfl hsettled⟩
  · have hqs : ∀ p ∈ qs, ∃ f ∈ d.fields, p = entryProperty f :=
      fun p hp => hfields p ((hsame p).mp hp)
    obtain ⟨new', outcomes', s'', hrun', hfills', -⟩ := hreads hqs
    exact ⟨outcomes', new', s'', hrun', hfills', hfills.perm hkeyed hfields hsame hfills'⟩

def kindsDocument : Document where
  name := "N"
  source := "N.jschema"
  value := .map [(.str "object", .str "object"), (.str "own", .map [(.str "x", .str "int")]),
    (.str "rows", .list [.str "int"]), (.str "label", .str "string"),
    (.str "kept", .map [(.str "N", .str "N")])]

def kindsStore : Store where
  nodes := #[{ body := .map [(.str "kept", .scalar .null)], form := .linked }]

theorem reads_fill_gaps_kinds :
    let w : Workshop := ⟨ofDocuments {} [kindsDocument], {}, false⟩
    let n : Node := { body := .map [(.str "kept", .scalar .null)], form := .linked }
    ∃ d model outcomes s' outcomes' s'', ∃ new new' : Assoc Scalar Value,
      w.registry.get? "N" = some d ∧ d.kind = .struct ∧ w.registry.model? d = some model ∧
      w.readEach d 0 model.properties kindsStore = (outcomes, s') ∧
      w.FillsGaps kindsStore 0 n [(.str "kept", .scalar .null)] model.properties new s' ∧
      w.readEach d 0 model.properties.reverse kindsStore = (outcomes', s'') ∧
      (new'.map fun e => (e.1, s''.nodeOf? e.2)).Perm
        (new.map fun e => (e.1, s'.nodeOf? e.2)) ∧
      .str "own" ∈ Assoc.keys new ∧ .str "kept" ∉ Assoc.keys new := by
  intro w n
  have hfound : ∃ d ∈ w.registry.get? "N", d.kind = .struct ∧ ∃ model ∈ w.registry.model? d,
      (∃ p ∈ model.properties, p.key? = some (.str "own") ∧ p.autocreate ≠ .none) := by
    decide +kernel
  obtain ⟨d, hd, hkind, model, hmodel, p, hp, hkey, hpolicy⟩ := hfound
  have hdocs : ∀ doc ∈ [kindsDocument], ∃ q, doc.value.IsDocument q := by
    intro doc hdoc
    obtain rfl := List.mem_singleton.mp hdoc
    exact ⟨fun _ => True, by decide⟩
  obtain ⟨outcomes, new, s', hrun, hfills, -, -, hall⟩ :=
    reads_fill_gaps (w := w) (m := 0) (s := kindsStore) (n := n) (.inl rfl) rfl hdocs hd hkind
      hmodel rfl rfl nofun rfl fun _ hp => hp
  obtain ⟨outcomes', new', s'', hrun', -, hperm⟩ :=
    hall model.properties.reverse fun _ => List.mem_reverse
  refine ⟨d, model, outcomes, s', outcomes', s'', new, new', hd, hkind, hmodel, hrun, hfills,
    hrun', hperm, ?_, ?_⟩
  · exact (hfills.gaps _).mpr ⟨p, hp, hkey, hpolicy, rfl⟩
  · intro hkept
    obtain ⟨-, -, -, -, habsent⟩ := (hfills.gaps _).mp hkept
    cases habsent

end Workshop
end Exemplar
