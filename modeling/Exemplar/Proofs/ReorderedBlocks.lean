import Exemplar.Proofs.StructSamples

/-! Documents in which the alias block of one struct is in another order. -/
namespace Exemplar.Inference
open Json TypeTable

/-- Two values that are the same, but for the order of the alias block of one struct, whose name is
`owner`. No block around the struct and none within its fields declares an alias of the block. -/
inductive Reordered (options : Options) (owner : String) (block block' : List (Scalar × Json)) :
    String → Json → Json → Prop
  | here {entries : List (Scalar × Json)} (struct : IsStruct (.ofOptions options) entries)
      (found : Assoc.get? entries (.str options.aliasesKey) = some (.map block))
      (fields : ∀ e ∈ entries, e.1 ≠ .str options.aliasesKey →
        Undeclared (.ofOptions options) (Assoc.keys block) e.2) :
      Reordered options owner block block' owner (.map entries)
        (.map (Assoc.insert entries (.str options.aliasesKey) (.map block')))
  | field {name key : String} {entries : List (Scalar × Json)} {v v' : Json}
      (struct : IsStruct (.ofOptions options) entries) (isField : key ≠ options.aliasesKey)
      (found : Assoc.get? entries (.str key) = some v)
      (others : ∀ outer, Assoc.get? entries (.str options.aliasesKey) = some (.map outer) →
        ∀ e ∈ outer, e.1 ∉ Assoc.keys block)
      (rest : Reordered options owner block block'
        (fieldPlace (.ofOptions options) entries name (.str key)) v v') :
      Reordered options owner block block' name (.map entries)
        (.map (Assoc.insert entries (.str key) v'))
  | target {name a : String} {entries outer : List (Scalar × Json)} {v v' : Json}
      (struct : IsStruct (.ofOptions options) entries)
      (found : Assoc.get? entries (.str options.aliasesKey) = some (.map outer))
      (others : ∀ e ∈ outer, e.1 ∉ Assoc.keys block)
      (own : Assoc.get? outer (.str a) = some v)
      (rest : Reordered options owner block block' (Name.member name (Identifier.ofText a)) v v') :
      Reordered options owner block block' name (.map entries)
        (.map (Assoc.insert entries (.str options.aliasesKey) (.map (Assoc.insert outer (.str a) v'))))
  | marked {name : String} {entries : List (Scalar × Json)} {v v' : Json}
      (noEnum : Markers.value? (some (.str options.enumKey)) entries = none)
      (found : Assoc.get? entries (.str options.mapOfKey) = some v)
      (rest : Reordered options owner block block' name v v') :
      Reordered options owner block block' name (.map entries)
        (.map (Assoc.insert entries (.str options.mapOfKey) v'))
  | item {name : String} {entries entries' : List (Scalar × Json)} {items : List Json}
      (rest : Reordered options owner block block' (elementName name) (.map entries)
        (.map entries')) :
      Reordered options owner block block' name (.list (.map entries :: items))
        (.list (.map entries' :: items))
  | nested {name : String} {inner inner' items : List Json}
      (rest : Reordered options owner block block' name (.list inner) (.list inner')) :
      Reordered options owner block block' name (.list (.list inner :: items))
        (.list (.list inner' :: items))

/-- How aliases of a struct of a name compare when a block is in another order: structs of the block
itself see a part of it only, and the others all of it. -/
def Reread (owner : String) (block : List (Scalar × Json)) (name : String) (t t' : Aliases) : Prop :=
  OfBlock owner block name ∨ (Ends t → Agree t t')

/-- A scope that knows none of the keys. -/
structure Unknown (taken : List Scalar) (s : AliasScope) : Prop where
  tidy : s.Tidy
  unseen : ∀ a, Scalar.str a ∈ taken → s.resolve (.str a) = none

variable {options : Options} {owner name : String} {block block' : List (Scalar × Json)}
  {v v' : Json} {c c' : Context} {s : AliasScope} {p : Scalar → Prop}
  {entries outer : List (Scalar × Json)}

theorem Reordered.alike (h : Reordered options owner block block' name v v') : v.Alike v' := by
  cases h <;> trivial

theorem Reordered.full (h : Reordered options owner block block' name v v') :
    v.isNull = false ∧ v'.isNull = false := by
  cases h <;> exact ⟨rfl, rfl⟩

theorem reread_same (name : String) (t : Aliases) : Reread owner block name t t :=
  .inr fun _ => .refl t

theorem Unknown.push {taken : List Scalar} (h : Unknown taken s) {t : Aliases} (ht : t.Tidy)
    (hnone : ∀ a, Scalar.str a ∈ taken → t.get? (.str a) = none) : Unknown taken (s.push t) := by
  refine ⟨h.tidy.push ht, fun a ha => ?_⟩
  rw [AliasScope.resolve_push, hnone a ha]
  exact h.unseen a ha

theorem Unknown.declare {taken : List Scalar} (h : Unknown taken s) (hopen : s.tables ≠ [])
    {a : String} (ha : Scalar.str a ∉ taken) (known : String) :
    Unknown taken (s.declare (.str a) known) := by
  refine ⟨h.tidy.declare a known, fun b hb => ?_⟩
  have hne : a ≠ b := by
    rintro rfl
    exact ha hb
  rw [AliasScope.resolve_declare hopen, if_neg hne]
  exact h.unseen b hb

theorem Unknown.within {taken : List Scalar} (h : Unknown taken s) {pre : List (Scalar × Json)}
    (hnames : ∀ e ∈ pre, ∃ a, e.1 = .str a) (hothers : ∀ e ∈ pre, e.1 ∉ taken) (name : String) :
    Unknown taken (s.push (blockTable s name [] pre)) := by
  refine h.push (tidy_blockTable hnames Assoc.tidy_nil) fun a ha => ?_
  refine get?_blockTable_other hnames fun hmem => ?_
  obtain ⟨e, he, hkey⟩ := List.mem_map.mp hmem
  rw [← hkey] at ha
  exact hothers e he ha

theorem Unknown.ofAliases {taken : List Scalar} (h : Unknown taken s)
    (hkey : c.markers.aliasesKey = some (.str options.aliasesKey)) (hv : IsDocument p (.map entries))
    (hothers : ∀ outer, Assoc.get? entries (.str options.aliasesKey) = some (.map outer) →
      ∀ e ∈ outer, e.1 ∉ taken) :
    Unknown taken (ofAliases c (s.push []) name entries).2 := by
  rw [scope_ofAliases hkey]
  refine h.within (names_ownBlock options hv) (fun e he => ?_) name
  rw [ownBlock] at he
  split at he
  · next outer hfound => exact hothers outer hfound e he
  · cases he

section Steps

variable {q : String → Aliases → Aliases → Prop}

/-- What a field defines stands among what its map defines. -/
theorem around_field (s : AliasScope) (name : String) (hq : ∀ name t, q name t t) (hc : c.Alike c')
    (hm : c.markers = .ofOptions options) (struct : IsStruct (.ofOptions options) entries)
    {key : String} (hkey : key ≠ options.aliasesKey)
    (found : Assoc.get? entries (.str key) = some v) (halike : v.Alike v')
    (hv : IsDocument p (.map entries)) :
    Around q
      (ofValue (c.sample (.str key) v) (ofAliases c (s.push []) name entries).2
        (fieldPlace (.ofOptions options) entries name (.str key)) v)
      (ofValue (c'.sample (.str key) v') (ofAliases c (s.push []) name entries).2
        (fieldPlace (.ofOptions options) entries name (.str key)) v')
      (ofValue c s name (.map entries))
      (ofValue c' s name (.map (Assoc.insert entries (.str key) v'))) := by
  have hm' : c'.markers = .ofOptions options := hc.markers.trans hm
  have hentries := entriesAlike_insert found halike
  have hother : Assoc.get? (Assoc.insert entries (.str key) v') (.str options.aliasesKey) =
      Assoc.get? entries (.str options.aliasesKey) := by
    rw [Assoc.get?_insert_str, if_neg hkey]
  have hblock : c.markers.aliasesKey = some (.str options.aliasesKey) := by
    rw [hm]
    rfl
  obtain ⟨hown, hinside⟩ := alike_ofAliases_same (s.push []) name hq hc hblock hother hv
  rw [ofValue_struct (hm ▸ struct), ofValue_struct (hm' ▸ struct.alike hentries), ← hinside,
    fieldNames_alike hc hentries]
  have hlast := alike_struct name hc hentries
    (hq name (ofAliases c (s.push []) name entries).2.snapshot)
  refine Around.append (Around.behind ?_ hown) (.cons hlast .nil)
  cases hv with
  | map names once parts =>
  obtain ⟨pre, post, hsplit, -, hinsert⟩ := split_found found
  have hisField : c.markers.isField (.str key) = true := by
    have hne : ¬(Scalar.str key == Scalar.str options.aliasesKey) = true := fun h =>
      hkey ((same_str _ _).mp h)
    rw [Markers.isField, hblock, Option.any_some, Bool.not_eq_true _ |>.mp hne]
    rfl
  have hplace : fieldPlace (.ofOptions options) entries name (.str key) =
      Name.member name (((fieldNames c entries).name? (.str key)).getD "") := by
    rw [fieldNames, hm]
    rfl
  have hsame (rest : List (Scalar × Json)) (hrest : ∀ e ∈ rest, e ∈ entries) :
      List.Forall₂ (Definition.Alike q)
        (ofFields c (ofAliases c (s.push []) name entries).2 name (fieldNames c entries) rest)
        (ofFields c' (ofAliases c (s.push []) name entries).2 name (fieldNames c entries) rest) :=
    alike_ofFields (simulates_same hq) hc rfl name _ rest fun e he =>
      undeclared_nil _ (parts e (hrest e he))
  have hbefore := hsame pre fun e he => by
    rw [hsplit]
    exact List.mem_append_left _ he
  have hafter := hsame post fun e he => by
    rw [hsplit]
    exact List.mem_append_right _ (List.mem_cons_of_mem _ he)
  rw [hplace, hinsert]
  generalize (ofAliases c (s.push []) name entries).2 = inside at hbefore hafter ⊢
  generalize fieldNames c entries = table at hbefore hafter ⊢
  have hisField' : c'.markers.isField (.str key) = true := hc.markers ▸ hisField
  rw [hsplit, ofFields_append, ofFields_append, ofFields, ofFields, if_pos hisField, if_pos hisField',
    ← List.append_assoc, ← List.append_assoc]
  exact .intro hbefore hafter

theorem targetOf_container {key : Scalar} (h : definesType (key, v) = true) :
    targetOf s name (key, v) = Name.member name (Identifier.ofText key.plainText) := by
  cases v with
  | scalar x => cases h
  | list items => rfl
  | map entries => rfl

theorem definesType_alike {key : Scalar} (h : definesType (key, v) = true) (halike : v.Alike v') :
    definesType (key, v') = true := by
  cases v with
  | scalar x => cases h
  | list items =>
    cases v' with
    | list items' => rfl
    | _ => exact halike.elim
  | map entries =>
    cases v' with
    | map entries' => rfl
    | _ => exact halike.elim

/-- What an alias defines stands among what its block defines, and the scope behind the block does
not depend on it. -/
theorem around_ofAliasEntries (s : AliasScope) (name : String) (hq : ∀ name t, q name t t)
    (hc : c.Alike c') {a : String}
    (own : Assoc.get? outer (.str a) = some v) (halike : v.Alike v')
    (hdefines : definesType (.str a, v) = true) (hv : IsDocument p (.map outer)) :
    ∃ inside, (∀ taken, Unknown taken s → (∀ e ∈ outer, e.1 ∉ taken) → Unknown taken inside) ∧
      Around q (ofValue (c.inside (.str a)) inside (Name.member name (Identifier.ofText a)) v)
        (ofValue (c'.inside (.str a)) inside (Name.member name (Identifier.ofText a)) v')
        (ofAliasEntries c (s.push []) name outer).1
        (ofAliasEntries c' (s.push []) name (Assoc.insert outer (.str a) v')).1 ∧
      (ofAliasEntries c (s.push []) name outer).2 =
        (ofAliasEntries c' (s.push []) name (Assoc.insert outer (.str a) v')).2 := by
  cases hv with
  | map names once parts =>
  obtain ⟨before, after, rfl, -, hinsert⟩ := split_found own
  rw [hinsert]
  let typeName := Name.member name (Identifier.ofText a)
  let reached := s.push (blockTable s name [] before)
  have hreached (c : Context) : (ofAliasEntries c (s.push []) name before).2 = reached :=
    scope_ofAliasEntries c s name [] before
  have htarget : targetOf reached name (.str a, v) = typeName := targetOf_container hdefines
  have htarget' : targetOf reached name (.str a, v') = typeName :=
    targetOf_container (definesType_alike hdefines halike)
  have hbefore := alike_ofAliasEntries (simulates_same hq) hc (Eq.refl (s.push [])) name before
    (fun e he => names e (List.mem_append_left _ he))
    (fun e he => undeclared_nil _ (parts e (List.mem_append_left _ he)))
    (fun _ _ => List.not_mem_nil)
  have hafter := alike_ofAliasEntries (simulates_same hq) hc
    (Eq.refl (reached.declare (.str a) typeName)) name after
    (fun e he => names e (List.mem_append_right _ (List.mem_cons_of_mem _ he)))
    (fun e he => undeclared_nil _ (parts e (List.mem_append_right _ (List.mem_cons_of_mem _ he))))
    (fun _ _ => List.not_mem_nil)
  refine ⟨reached.declare (.str a) typeName, fun taken hs hothers => ?_, ?_, ?_⟩
  · have hs : Unknown taken reached := hs.within (fun e he => names e (List.mem_append_left _ he))
      (fun e he => hothers e (List.mem_append_left _ he)) name
    refine hs.declare (List.cons_ne_nil _ _) ?_ typeName
    exact hothers (.str a, v) (List.mem_append_right _ List.mem_cons_self)
  · rw [ofAliasEntries_append, ofAliasEntries_append, hreached, hreached, ofAliasEntries_cons,
      ofAliasEntries_cons, htarget, htarget']
    exact ((Around.refl q _ _).append hafter.1).behind hbefore.1
  · rw [scope_ofAliasEntries, scope_ofAliasEntries, blockTable_append, blockTable_append]
    let table := blockTable s name [] before
    change s.push (blockTable s name (table.insert (.str a) (targetOf reached name (.str a, v))) after) =
      s.push (blockTable s name (table.insert (.str a) (targetOf reached name (.str a, v'))) after)
    rw [htarget, htarget']

/-- What an alias defines stands among what the map of its block defines. -/
theorem around_target (s : AliasScope) (name : String) (hq : ∀ name t, q name t t) (hc : c.Alike c')
    (hm : c.markers = .ofOptions options) (struct : IsStruct (.ofOptions options) entries)
    (found : Assoc.get? entries (.str options.aliasesKey) = some (.map outer)) {a : String}
    (own : Assoc.get? outer (.str a) = some v) (halike : v.Alike v')
    (hdefines : definesType (.str a, v) = true) (hv : IsDocument p (.map entries)) :
    let key := Scalar.str options.aliasesKey
    ∃ inside, (∀ taken, Unknown taken s → (∀ e ∈ outer, e.1 ∉ taken) → Unknown taken inside) ∧
      Around q
        (ofValue ((c.inside key).inside (.str a)) inside (Name.member name (Identifier.ofText a)) v)
        (ofValue ((c'.inside key).inside (.str a)) inside (Name.member name (Identifier.ofText a)) v')
        (ofValue c s name (.map entries))
        (ofValue c' s name (.map (Assoc.insert entries key (.map (Assoc.insert outer (.str a) v'))))) := by
  intro key
  have hm' : c'.markers = .ofOptions options := hc.markers.trans hm
  have hblock : c.markers.aliasesKey = some key := by
    rw [hm]
    rfl
  have hblock' : c'.markers.aliasesKey = some key := hc.markers ▸ hblock
  let outer' := Assoc.insert outer (.str a) v'
  have hentries : EntriesAlike entries (Assoc.insert entries key (.map outer')) :=
    entriesAlike_insert found trivial
  have found' : Assoc.get? (Assoc.insert entries key (.map outer')) key = some (.map outer') := by
    rw [Assoc.get?_insert_str, if_pos rfl]
  obtain ⟨inside, hunknown, haround, hscope⟩ :=
    around_ofAliasEntries s name hq (hc.inside key) own halike hdefines
      (hv.found found)
  refine ⟨inside, hunknown, ?_⟩
  have hparts : ∀ e ∈ entries, e.1 ≠ key → Undeclared c.markers [] e.2 := by
    cases hv with
    | map names once parts => exact fun e he _ => undeclared_nil _ (parts e he)
  have once : (Assoc.keys entries).Nodup := by
    cases hv with
    | map names once parts => exact once
  rw [ofValue_struct (hm ▸ struct), ofValue_struct (hm' ▸ struct.alike hentries),
    ofAliases_found hblock found, ofAliases_found hblock' found', ofAliasBlock, ofAliasBlock, ← hscope,
    fieldNames_alike hc hentries]
  refine (haround.append ?_).append (.cons (alike_struct name hc hentries (hq name _)) .nil)
  exact alike_ofFields_block name _ (simulates_same hq) hc rfl hblock found once hparts _

end Steps

end Exemplar.Inference
