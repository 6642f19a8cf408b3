import Exemplar.Proofs.AlikeDefinitions

/-! Blocks of aliases in another order. An entry takes over what its target stands for if the target
was declared before it, and the target itself if not; either way the chains of the block lead to the
same names. -/
namespace Exemplar.Inference
open Json TypeTable

def targetOf (s : AliasScope) (name : String) (e : Scalar × Json) : String :=
  match e.2 with
  | .scalar x => s.bound x.plainText
  | _ => Name.member name (Identifier.ofText e.1.plainText)

/-- The table that a block makes of the aliases before it, inside a scope. -/
def blockTable (s : AliasScope) (name : String) (t : Aliases) (block : List (Scalar × Json)) :
    Aliases :=
  block.foldl (fun t e => t.insert e.1 (targetOf (s.push t) name e)) t

theorem ofAliasEntries_cons (c : Context) (s : AliasScope) (name : String) (e : Scalar × Json)
    (rest : List (Scalar × Json)) :
    let inside := s.declare e.1 (targetOf s name e)
    ofAliasEntries c s name (e :: rest) =
      (ofValue (c.inside e.1) inside (Name.member name (Identifier.ofText e.1.plainText)) e.2 ++
        (ofAliasEntries c inside name rest).1, (ofAliasEntries c inside name rest).2) := by
  obtain ⟨a, v⟩ := e
  cases v with
  | scalar x => exact ofAliasEntries_scalar c s name a x rest
  | list items =>
    rw [ofAliasEntries]
    · rfl
    · simp
  | map entries =>
    rw [ofAliasEntries]
    · rfl
    · simp

theorem scope_ofAliasEntries (c : Context) (s : AliasScope) (name : String) (t : Aliases)
    (block : List (Scalar × Json)) :
    (ofAliasEntries c (s.push t) name block).2 = s.push (blockTable s name t block) := by
  induction block generalizing t with
  | nil =>
    rw [ofAliasEntries]
    rfl
  | cons e block ih =>
    rw [ofAliasEntries_cons]
    exact ih _

variable {s : AliasScope} {name a target : String} {t : Aliases} {v : Json}
  {block pre post : List (Scalar × Json)}

theorem blockTable_append (s : AliasScope) (name : String) (t : Aliases)
    (pre post : List (Scalar × Json)) :
    blockTable s name t (pre ++ post) = blockTable s name (blockTable s name t pre) post :=
  List.foldl_append

theorem tidy_blockTable (hnames : ∀ e ∈ block, ∃ a, e.1 = .str a) (ht : t.Tidy) :
    (blockTable s name t block).Tidy := by
  induction block generalizing t with
  | nil => exact ht
  | cons e block ih =>
    obtain ⟨⟨a, ha⟩, hnames⟩ := List.forall_mem_cons.mp hnames
    have hinsert := ht.insert a (targetOf (s.push t) name e)
    rw [← ha] at hinsert
    exact ih hnames hinsert

theorem get?_blockTable_other (hnames : ∀ e ∈ block, ∃ a, e.1 = .str a)
    (hother : Scalar.str a ∉ Assoc.keys block) :
    Assoc.get? (blockTable s name t block) (.str a) = Assoc.get? t (.str a) := by
  induction block generalizing t with
  | nil => rfl
  | cons e block ih =>
    obtain ⟨⟨b, hb⟩, hnames⟩ := List.forall_mem_cons.mp hnames
    obtain ⟨hne, hother⟩ := not_or.mp (List.mem_cons.not.mp hother)
    have hba : b ≠ a := by
      rintro rfl
      exact hne hb.symm
    have hinsert := Assoc.get?_insert_str t b a (targetOf (s.push t) name e)
    rw [← hb, if_neg hba] at hinsert
    exact (ih hnames hother).trans hinsert

/-- What an alias stands for is settled by its entry and the entries before it. -/
theorem get?_blockTable (hnames : ∀ e ∈ pre ++ (.str a, v) :: post, ∃ a, e.1 = .str a)
    (hnew : Scalar.str a ∉ Assoc.keys post) :
    Assoc.get? (blockTable s name [] (pre ++ (.str a, v) :: post)) (.str a) =
      some (targetOf (s.push (blockTable s name [] pre)) name (.str a, v)) := by
  have hpost : ∀ e ∈ post, ∃ a, e.1 = .str a := fun e he => hnames e (by simp [he])
  rw [blockTable_append]
  refine (get?_blockTable_other hpost hnew).trans ?_
  rw [Assoc.get?_insert_str, if_pos rfl]

/-- A block of aliases inside a scope that declares none of them. -/
structure Fresh (s : AliasScope) (block : List (Scalar × Json)) : Prop where
  tidy : s.Tidy
  names : ∀ e ∈ block, ∃ a, e.1 = .str a
  once : (Assoc.keys block).Nodup
  unknown : ∀ a, Scalar.str a ∈ Assoc.keys block → s.resolve (.str a) = none

theorem Fresh.of_perm {block' : List (Scalar × Json)} (h : Fresh s block) (hperm : block'.Perm block) :
    Fresh s block' := by
  have hkeys : (Assoc.keys block').Perm (Assoc.keys block) := hperm.map Prod.fst
  exact ⟨h.tidy, fun e he => h.names e (hperm.mem_iff.mp he), hkeys.nodup_iff.mpr h.once,
    fun a ha => h.unknown a (hkeys.mem_iff.mp ha)⟩

theorem Fresh.get?_table (h : Fresh s block) (hblock : block = pre ++ (.str a, v) :: post) :
    Assoc.get? (blockTable s name [] block) (.str a) =
      some (targetOf (s.push (blockTable s name [] pre)) name (.str a, v)) := by
  subst hblock
  have honce := h.once
  rw [Assoc.keys, List.map_append, List.nodup_append] at honce
  exact get?_blockTable h.names (List.nodup_cons.mp honce.2.1).1

theorem exists_entry (ha : Scalar.str a ∈ Assoc.keys block) :
    ∃ v pre post, block = pre ++ (.str a, v) :: post := by
  obtain ⟨⟨key, v⟩, he, hkey⟩ := List.mem_map.mp ha
  obtain rfl : key = .str a := hkey
  exact ⟨v, List.append_of_mem he⟩

/-- The ways in which an alias of a text stands for something: for what the text stands for outside,
for the text if that is an alias that comes later, or for what an alias before it stands for. -/
theorem Fresh.scalar_cases (h : Fresh s block) (name : String) {x : Scalar}
    (hblock : block = pre ++ (.str a, .scalar x) :: post) :
    (Scalar.str x.plainText ∉ Assoc.keys block ∧
        Assoc.get? (blockTable s name [] block) (.str a) = some (s.bound x.plainText)) ∨
      Scalar.str x.plainText ∈ Assoc.keys block ∧
        (Assoc.get? (blockTable s name [] block) (.str a) = some x.plainText ∨
          Scalar.str x.plainText ∈ Assoc.keys pre ∧
            ∃ known, Assoc.get? (blockTable s name [] block) (.str x.plainText) = some known ∧
              Assoc.get? (blockTable s name [] block) (.str a) = some known) := by
  let t := blockTable s name [] block
  let target := x.plainText
  have hnames : ∀ e ∈ pre ++ (.str a, .scalar x) :: post, ∃ a, e.1 = .str a := hblock ▸ h.names
  have hkeys : Assoc.keys block = Assoc.keys pre ++ .str a :: Assoc.keys post := by
    rw [hblock, Assoc.keys, List.map_append]
    rfl
  have honce := h.once
  rw [hkeys, List.nodup_append] at honce
  obtain ⟨hbegin, -, hapart⟩ := honce
  have hown : t.get? (.str a) = some ((s.push (blockTable s name [] pre)).bound target) :=
    h.get?_table hblock
  have hpre : ∀ e ∈ pre, ∃ a, e.1 = .str a := fun e he => hnames e (List.mem_append_left _ he)
  have hfirst : Fresh s pre := ⟨h.tidy, hpre, hbegin, fun b hb =>
    h.unknown b (hkeys ▸ List.mem_append_left _ hb)⟩
  have hresolve := AliasScope.resolve_push s (blockTable s name [] pre) target
  by_cases hbefore : Scalar.str target ∈ Assoc.keys pre
  · have hlate : Scalar.str target ∉ Assoc.keys ((.str a, .scalar x) :: post) := fun hmem =>
      hapart _ hbefore _ hmem rfl
    obtain ⟨known, hknown⟩ : ∃ known, Assoc.get? (blockTable s name [] pre) (.str target) =
        some known := by
      obtain ⟨v, pre', post', hpre'⟩ := exists_entry hbefore
      exact ⟨_, hfirst.get?_table hpre'⟩
    have hlater : t.get? (.str target) = some known := by
      have hother : Assoc.get? (blockTable s name (blockTable s name [] pre)
          ((.str a, .scalar x) :: post)) (.str target) =
            Assoc.get? (blockTable s name [] pre) (.str target) :=
        get?_blockTable_other (fun e he => hnames e (List.mem_append_right pre he)) hlate
      rw [← blockTable_append, ← hblock] at hother
      exact hother.trans hknown
    rw [hknown, Option.some_or] at hresolve
    rw [hown, AliasScope.bound_of_some hresolve]
    right
    refine ⟨hkeys ▸ List.mem_append_left _ hbefore, ?_⟩
    by_cases hempty : known = ""
    · rw [if_pos hempty]
      exact .inl rfl
    · rw [if_neg hempty]
      exact .inr ⟨hbefore, known, hlater, rfl⟩
  · have hnone : Assoc.get? (blockTable s name [] pre) (.str target) = none :=
      get?_blockTable_other hpre hbefore
    rw [hnone] at hresolve
    have hresolve : (s.push (blockTable s name [] pre)).resolve (.str target) =
        s.resolve (.str target) := hresolve
    rw [hown, AliasScope.bound_congr hresolve]
    by_cases hlater : Scalar.str target ∈ Assoc.keys block
    · rw [AliasScope.bound_of_none (h.unknown target hlater)]
      exact .inr ⟨hlater, .inl rfl⟩
    · exact .inl ⟨hlater, rfl⟩

/-- An alias of an alias of the block stands for that, or for what that stands for. -/
theorem Fresh.scalar_inside (h : Fresh s block) (name : String) {x : Scalar}
    (hblock : block = pre ++ (.str a, .scalar x) :: post)
    (hinside : Scalar.str x.plainText ∈ Assoc.keys block) :
    ∃ known, Assoc.get? (blockTable s name [] block) (.str a) = some known ∧
      (known = x.plainText ∨
        Assoc.get? (blockTable s name [] block) (.str x.plainText) = some known) := by
  rcases h.scalar_cases name hblock with ⟨houtside, -⟩ | ⟨-, hknown | ⟨-, known, htarget, hknown⟩⟩
  · exact (houtside hinside).elim
  · exact ⟨_, hknown, .inl rfl⟩
  · exact ⟨known, hknown, .inr htarget⟩

section Reordered

variable {block' : List (Scalar × Json)}

/-- The aliases of a block stand for names that meet, in whatever order the block is. -/
theorem Fresh.meets_entry (h : Fresh s block) (hperm : block'.Perm block) {n : Nat} {last : String}
    (hlast : Assoc.get? (s.push (blockTable s name [] block)).snapshot (.str last) = none)
    (hleads : LeadsIn (s.push (blockTable s name [] block)).snapshot n a last)
    (hblock : block = pre ++ (.str a, v) :: post) :
    let t := blockTable s name [] block
    let t' := blockTable s name [] block'
    ∃ known known', t.get? (.str a) = some known ∧ t'.get? (.str a) = some known' ∧
      Meets t t' known known' := by
  intro t t'
  have h' := h.of_perm hperm
  have htidy : t.Tidy := tidy_blockTable h.names Assoc.tidy_nil
  have hseen (b : String) : (s.push t).snapshot.get? (.str b) =
      (t.get? (.str b)).or (s.resolve (.str b)) := by
    rw [AliasScope.get?_snapshot (h.tidy.push htidy), AliasScope.resolve_push]
  -- On the distance from the end of the chain and then on the place in the block: the target of an
  -- alias is nearer to the end, or it is as far and comes before the alias.
  induction n using Nat.strongRecOn generalizing a v pre post with
  | _ n ihn =>
  induction hplace : pre.length using Nat.strongRecOn generalizing a v pre post with
  | _ place ihp =>
  have hmem' : (Scalar.str a, v) ∈ block' := hperm.mem_iff.mpr (by simp [hblock])
  obtain ⟨pre', post', hblock'⟩ := List.append_of_mem hmem'
  cases v with
  | list items => exact ⟨_, _, h.get?_table hblock, h'.get?_table hblock', .refl t t' _⟩
  | map entries => exact ⟨_, _, h.get?_table hblock, h'.get?_table hblock', .refl t t' _⟩
  | scalar x =>
    let target := x.plainText
    have hkeys : (Assoc.keys block').Perm (Assoc.keys block) := hperm.map Prod.fst
    rcases h.scalar_cases name hblock with ⟨houtside, hknown⟩ | ⟨hinside, hcases⟩
    · rcases h'.scalar_cases name hblock' with ⟨-, hknown'⟩ | ⟨hinside, -⟩
      · exact ⟨_, _, hknown, hknown', .refl t t' _⟩
      · exact (houtside (hkeys.mem_iff.mp hinside)).elim
    · -- What the target stands for meets, and each alias stands for that or for the target itself.
      obtain ⟨known, hknown, hbetween⟩ := h.scalar_inside name hblock hinside
      obtain ⟨known', hknown', hbetween'⟩ :=
        h'.scalar_inside name hblock' (hkeys.mem_iff.mpr hinside)
      obtain ⟨further, further', hfurther, hfurther', middle, hto, hto'⟩ :
          ∃ further further', t.get? (.str target) = some further ∧
            t'.get? (.str target) = some further' ∧ Meets t t' further further' := by
        obtain ⟨u, pre₁, post₁, hentry⟩ := exists_entry hinside
        cases hleads with
        | here =>
          rw [hseen, hknown] at hlast
          cases hlast
        | @step n _ next _ found rest =>
          rw [hseen, hknown] at found
          obtain rfl : known = next := Option.some.inj found
          rcases hcases with hfound | ⟨hbefore, known₁, hfurther, hfound⟩
          · have hsame : known = target := Option.some.inj (hknown.symm.trans hfound)
            rw [hsame] at rest
            exact ihn n (Nat.lt_succ_self n) rest hentry
          · have hsame : known = known₁ := Option.some.inj (hknown.symm.trans hfound)
            have hchain : LeadsIn (s.push t).snapshot (n + 1) target last := by
              refine .step ?_ rest
              rw [hseen, hfurther, ← hsame]
              rfl
            obtain ⟨u', pre₂, post₂, hpre⟩ := exists_entry hbefore
            have hentry' :
                block = pre₂ ++ (.str target, u') :: (post₂ ++ (.str a, .scalar x) :: post) := by
              rw [hblock, hpre, List.append_assoc, List.cons_append]
            have hshorter : pre₂.length < place := by
              rw [← hplace, hpre, List.length_append, List.length_cons]
              omega
            exact ihp pre₂.length hshorter hchain hentry' rfl
      exact ⟨known, known', hknown, hknown', middle, hto.behind hfurther hbetween,
        hto'.behind hfurther' hbetween'⟩

end Reordered

end Exemplar.Inference
