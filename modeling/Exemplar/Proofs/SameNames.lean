import Exemplar.Proofs.DefinedBy
import Exemplar.Proofs.ReorderedScopes

/-! Definitions of the same names. In what order a block defines its types makes no difference to the
definitions that come under one name, if no two of its aliases name one type. -/
namespace Exemplar.Inference
open Json TypeTable

/-- Under each name there are as many definitions, which are alike in order. -/
def AlikeByName (q : String → Aliases → Aliases → Prop) (ds ds' : List Definition) : Prop :=
  ∀ name, List.Forall₂ (Definition.Alike q) (ds.filter fun d => d.name = name)
    (ds'.filter fun d => d.name = name)

section Alike

variable {q q' : String → Aliases → Aliases → Prop} {ds ds' more more' : List Definition}

theorem AlikeByName.of_forall₂ (h : List.Forall₂ (Definition.Alike q) ds ds') :
    AlikeByName q ds ds' := by
  intro name
  refine List.rel_filter (fun d d' hd => ?_) h
  simp only [hd.name]

theorem AlikeByName.append (h : AlikeByName q ds ds') (hmore : AlikeByName q more more') :
    AlikeByName q (ds ++ more) (ds' ++ more') := by
  intro name
  rw [List.filter_append, List.filter_append]
  exact List.rel_append (h name) (hmore name)

theorem AlikeByName.mono (h : AlikeByName q ds ds')
    (hq : ∀ d ∈ ds, ∀ t t', q d.name t t' → q' d.name t t') : AlikeByName q' ds ds' := by
  intro name
  have hall : ∀ d ∈ ds.filter fun d => d.name = name, ∀ t t', q d.name t t' → q' d.name t t' :=
    fun d hd => hq d (List.mem_of_mem_filter hd)
  have hname := h name
  generalize (ds.filter fun d => d.name = name) = left at hall hname ⊢
  generalize (ds'.filter fun d => d.name = name) = right at hname ⊢
  clear h
  induction hname with
  | nil => exact .nil
  | cons hd _ ih =>
    obtain ⟨hfirst, hrest⟩ := List.forall_mem_cons.mp hall
    exact .cons (hd.mono hfirst) (ih hrest)

end Alike

def definesType (e : Scalar × Json) : Bool := e.2.isMap || e.2.isList

/-- A type that a block of aliases defines, or one within it. -/
def OfBlock (owner : String) (block : List (Scalar × Json)) (name : String) : Prop :=
  ∃ e ∈ block, definesType e = true ∧
    Name.Inside (Name.member owner (Identifier.ofText e.1.plainText)) name

def TypesApart (block : List (Scalar × Json)) : Prop :=
  block.Pairwise fun e e' => definesType e = true → definesType e' = true →
    Identifier.ofText e.1.plainText ≠ Identifier.ofText e'.1.plainText

section Block

variable {c c' : Context} {s s' : AliasScope} {owner name : String}
  {block block' pre post : List (Scalar × Json)}

theorem ofBlock_ofAliasEntries (c : Context) (s : AliasScope) (owner : String)
    (block : List (Scalar × Json)) :
    ∀ d ∈ (ofAliasEntries c s owner block).1, OfBlock owner block d.name := by
  induction block generalizing s with
  | nil =>
    rw [ofAliasEntries]
    simp
  | cons e block ih =>
    intro d hd
    rw [ofAliasEntries_cons] at hd
    rcases List.mem_append.mp hd with hd | hd
    · refine ⟨e, List.mem_cons_self, ?_, (madeBy_ofValue _ _ _ _ d hd).inside⟩
      obtain ⟨key, v⟩ := e
      cases v with
      | scalar x =>
        rw [ofValue] at hd
        cases hd
      | list items => rfl
      | map entries => rfl
    · obtain ⟨e', he', hrest⟩ := ih _ d hd
      exact ⟨e', List.mem_cons_of_mem e he', hrest⟩

theorem ofAliasEntries_append (c : Context) (s : AliasScope) (owner : String)
    (pre post : List (Scalar × Json)) : (ofAliasEntries c s owner (pre ++ post)).1 =
      (ofAliasEntries c s owner pre).1 ++
        (ofAliasEntries c (ofAliasEntries c s owner pre).2 owner post).1 := by
  induction pre generalizing s with
  | nil =>
    simp only [ofAliasEntries]
    rfl
  | cons e pre ih =>
    rw [List.cons_append, ofAliasEntries_cons, ofAliasEntries_cons, ih, List.append_assoc]

theorem filter_ofBlock (hnone : ¬OfBlock owner block name) :
    (ofAliasEntries c s owner block).1.filter (fun d => d.name = name) = [] := by
  rw [List.filter_eq_nil_iff]
  intro d hd hname
  rw [decide_eq_true_iff] at hname
  exact hnone (hname ▸ ofBlock_ofAliasEntries c s owner block d hd)

/-- If only one alias can define a name, then what comes under the name is defined by its entry. -/
theorem filter_ofAliasEntries {e : Scalar × Json} (hpre : ¬OfBlock owner pre name)
    (hpost : ¬OfBlock owner post name) :
    ∃ inside, (ofAliasEntries c s owner (pre ++ e :: post)).1.filter (fun d => d.name = name) =
      (ofValue (c.inside e.1) inside (Name.member owner (Identifier.ofText e.1.plainText)) e.2).filter
        (fun d => d.name = name) := by
  rw [ofAliasEntries_append, List.filter_append, filter_ofBlock hpre, List.nil_append,
    ofAliasEntries_cons, List.filter_append, filter_ofBlock hpost, List.append_nil]
  exact ⟨_, rfl⟩

theorem TypesApart.perm (h : TypesApart block) (hperm : block'.Perm block) : TypesApart block' :=
  (hperm.pairwise_iff fun hne he he' => (hne he' he).symm).mpr h

theorem TypesApart.alone {e : Scalar × Json} (h : TypesApart (pre ++ e :: post))
    (he : definesType e = true)
    (hinside : Name.Inside (Name.member owner (Identifier.ofText e.1.plainText)) name) :
    ¬OfBlock owner pre name ∧ ¬OfBlock owner post name := by
  obtain ⟨-, hrest, hbefore⟩ := List.pairwise_append.mp h
  obtain ⟨hafter, -⟩ := List.pairwise_cons.mp hrest
  have hsame {e' : Scalar × Json}
      (hinside' : Name.Inside (Name.member owner (Identifier.ofText e'.1.plainText)) name) :
      Identifier.ofText e'.1.plainText = Identifier.ofText e.1.plainText :=
    Name.segment_unique (Identifier.isWord_ofText _) (Identifier.isWord_ofText _) hinside' hinside
  constructor
  · rintro ⟨e', hmem, he', hinside'⟩
    exact hbefore e' hmem e List.mem_cons_self he' he (hsame hinside')
  · rintro ⟨e', hmem, he', hinside'⟩
    exact hafter e' hmem he he' (hsame hinside').symm

theorem simulates_any : Simulates [] (fun _ _ => True) fun _ _ _ => True :=
  ⟨fun _ => trivial, fun _ _ _ _ => trivial, fun _ _ _ _ => trivial, fun _ _ => trivial⟩

/-- The order of a block makes no difference to what comes under one name, but for the aliases that
the structs of its types take along. -/
theorem alikeByName_ofAliasEntries (s s' : AliasScope) (owner : String) {p : Scalar → Prop}
    (hc : c.Alike c') (hperm : block'.Perm block) (hapart : TypesApart block)
    (hv : ∀ e ∈ block, IsDocument p e.2) :
    AlikeByName (fun name _ _ => OfBlock owner block name) (ofAliasEntries c s owner block).1
      (ofAliasEntries c' s' owner block').1 := by
  have hany : AlikeByName (fun _ _ _ => True) (ofAliasEntries c s owner block).1
      (ofAliasEntries c' s' owner block').1 := by
    intro name
    by_cases hname : OfBlock owner block name
    · obtain ⟨e, he, hdefines, hinside⟩ := hname
      obtain ⟨pre, post, rfl⟩ := List.append_of_mem he
      obtain ⟨pre', post', rfl⟩ := List.append_of_mem (hperm.mem_iff.mpr he)
      obtain ⟨hpre, hpost⟩ := hapart.alone hdefines hinside
      obtain ⟨hpre', hpost'⟩ := (hapart.perm hperm).alone hdefines hinside
      obtain ⟨inside, hfilter⟩ := filter_ofAliasEntries (c := c) (s := s) (e := e) hpre hpost
      obtain ⟨inside', hfilter'⟩ := filter_ofAliasEntries (c := c') (s := s') (e := e) hpre' hpost'
      rw [hfilter, hfilter']
      exact AlikeByName.of_forall₂ (alike_ofValue simulates_any (hc.inside e.1) trivial _ e.2
        (undeclared_nil _ (hv e he))) name
    · have hname' : ¬OfBlock owner block' name := by
        rintro ⟨e, he, hrest⟩
        exact hname ⟨e, hperm.mem_iff.mp he, hrest⟩
      rw [filter_ofBlock hname, filter_ofBlock hname']
      exact .nil
  exact hany.mono fun d hd _ _ _ => ofBlock_ofAliasEntries c s owner block d hd

end Block

end Exemplar.Inference
