import Exemplar.Proofs.ReorderedBlocks

/-! The order of an alias block and what a document defines. One struct has its block reordered;
everything else is defined as before. -/
namespace Exemplar.Inference
open Json TypeTable

variable {options : Options} {owner name : String} {block block' : List (Scalar × Json)}
  {v v' : Json} {c c' : Context} {s : AliasScope} {p : Scalar → Prop}
  {entries : List (Scalar × Json)}

/-- What a struct and all within it define when its alias block is in another order. -/
theorem alikeByName_owner (hc : c.Alike c') (hm : c.markers = .ofOptions options)
    (hs : Unknown (Assoc.keys block) s) (struct : IsStruct (.ofOptions options) entries)
    (found : Assoc.get? entries (.str options.aliasesKey) = some (.map block))
    (fields : ∀ e ∈ entries, e.1 ≠ .str options.aliasesKey →
      Undeclared (.ofOptions options) (Assoc.keys block) e.2)
    (hperm : block'.Perm block) (hapart : TypesApart block) (hv : IsDocument p (.map entries))
    (hends : ∀ d ∈ ofValue c s owner (.map entries), Ends d.aliases) :
    AlikeByName (Reread owner block) (ofValue c s owner (.map entries))
      (ofValue c' s owner
        (.map (Assoc.insert entries (.str options.aliasesKey) (.map block')))) := by
  let key := Scalar.str options.aliasesKey
  have hm' : c'.markers = .ofOptions options := hc.markers.trans hm
  have hblock : c.markers.aliasesKey = some key := by
    rw [hm]
    rfl
  have hblock' : c'.markers.aliasesKey = some key := hc.markers ▸ hblock
  have hentries : EntriesAlike entries (Assoc.insert entries key (.map block')) :=
    entriesAlike_insert found trivial
  have found' : Assoc.get? (Assoc.insert entries key (.map block')) key = some (.map block') := by
    rw [Assoc.get?_insert_str, if_pos rfl]
  have hfresh : Fresh s block := by
    cases hv.found found with
    | map names once parts => exact ⟨hs.tidy, names, once, hs.unseen⟩
  have hparts : ∀ e ∈ block, IsDocument p e.2 := by
    cases hv.found found with
    | map names once parts => exact parts
  have once : (Assoc.keys entries).Nodup := by
    cases hv with
    | map names once parts => exact once
  rw [ofValue_struct (hm ▸ struct), ofAliases_found hblock found, ofAliasBlock] at hends ⊢
  rw [scope_ofAliasEntries] at hends ⊢
  have hlast := hends _ (List.mem_append_right _ List.mem_cons_self)
  have hrivals := hfresh.rivals hperm hlast
  have hbeside := hfresh.beside hperm hrivals
  have hsim : Simulates (Assoc.keys block)
      (ScopesBeside (Assoc.keys block) (blockTable s owner [] block) (blockTable s owner [] block'))
      (Reread owner block) := by
    have h := simulates_beside hrivals
    exact ⟨h.push, h.declare, h.bind, fun name hR => .inr (h.snapshot name hR)⟩
  have hown := alikeByName_ofAliasEntries (s.push []) (s.push []) owner
    (hc.inside key) hperm hapart hparts
  have hfields := alike_ofFields_block owner (.map block') hsim hc hbeside hblock
    found once (hm ▸ fields) (fieldNames c entries)
  have hstruct := alike_struct owner hc hentries (hsim.snapshot owner hbeside)
  rw [ofValue_struct (hm' ▸ struct.alike hentries), ofAliases_found hblock' found', ofAliasBlock,
    scope_ofAliasEntries, fieldNames_alike hc hentries]
  refine AlikeByName.append (AlikeByName.append ?_ (.of_forall₂ hfields))
    (.of_forall₂ (.cons hstruct .nil))
  exact hown.mono fun d _ t t' hd => .inl hd

/-- What a value defines that stands so many levels into a list; other values stand in none. -/
def ofValueAt (c : Context) (s : AliasScope) (name : String) (depth : Nat) : Json → List Definition
  | .list items => ofItems c s name depth items
  | v => ofValue c s name v

theorem ofValueAt_zero (c : Context) (s : AliasScope) (name : String) (v : Json) :
    ofValueAt c s name 0 v = ofValue c s name v := by
  cases v with
  | list items =>
    rw [ofValue]
    rfl
  | scalar x => rfl
  | map entries => rfl

/-- A marked value may be replaced by one that is alike. -/
theorem marked_insert (noEnum : Markers.value? (some (.str options.enumKey)) entries = none)
    (found : Assoc.get? entries (.str options.mapOfKey) = some v) (halike : v.Alike v') :
    Markers.value? (some (.str options.enumKey))
        (Assoc.insert entries (.str options.mapOfKey) v') = none ∧
      Assoc.get? (Assoc.insert entries (.str options.mapOfKey) v') (.str options.mapOfKey) =
        some v' := by
  have hsame := (entriesAlike_insert found halike).value?_isSome (some (.str options.enumKey))
  rw [noEnum] at hsame
  refine ⟨Option.isNone_iff_eq_none.mp (Option.isSome_eq_false_iff.mp hsame), ?_⟩
  rw [Assoc.get?_insert_str, if_pos rfl]

theorem Reordered.alikeByName_at (h : Reordered options owner block block' name v v')
    (hperm : block'.Perm block) (hapart : TypesApart block) (hv : IsDocument p v)
    (hc : c.Alike c') (hm : c.markers = .ofOptions options) (hs : Unknown (Assoc.keys block) s)
    (depth : Nat) (hends : ∀ d ∈ ofValueAt c s name depth v, Ends d.aliases) :
    AlikeByName (Reread owner block) (ofValueAt c s name depth v) (ofValueAt c' s name depth v') := by
  have hq : ∀ name t, Reread owner block name t t := reread_same
  -- Along the way to the block: what stands beside it is defined as before, and the scope on the way
  -- knows none of its aliases.
  induction h generalizing c c' s depth with
  | here struct found fields =>
    exact alikeByName_owner hc hm hs struct found fields hperm hapart hv hends
  | @field name key entries v v' struct isField found others rest ih =>
    have haround := around_field s name hq hc hm struct isField found rest.alike hv
    refine haround.alikeByName ?_
    rw [← ofValueAt_zero, ← ofValueAt_zero]
    refine ih (hv.found found) (hc.sample _ v v') hm
      (hs.ofAliases (congrArg Markers.aliasesKey hm) hv others) 0 fun d hd => ?_
    rw [ofValueAt_zero] at hd
    exact hends d (haround.mem hd)
  | @target name a entries outer v v' struct found others own rest ih =>
    have hdefines : definesType (.str a, v) = true := by
      cases rest <;> rfl
    obtain ⟨inside, hunknown, haround⟩ :=
      around_target s name hq hc hm struct found own rest.alike hdefines hv
    refine haround.alikeByName ?_
    rw [← ofValueAt_zero, ← ofValueAt_zero]
    refine ih ((hv.found found).found own) ((hc.inside _).inside _) hm (hunknown _ hs others) 0
      fun d hd => ?_
    rw [ofValueAt_zero] at hd
    exact hends d (haround.mem hd)
  | @marked name entries v v' noEnum found rest ih =>
    obtain ⟨hfull, hfull'⟩ := rest.full
    have hm' : c'.markers = .ofOptions options := hc.markers.trans hm
    obtain ⟨noEnum', found'⟩ := marked_insert noEnum found rest.alike
    have hsame (depth : Nat) (c : Context) (s : AliasScope) (entries : List (Scalar × Json)) :
        ofValueAt c s name depth (.map entries) = ofValue c s name (.map entries) := rfl
    rw [hsame, ofValue_marked hm noEnum found hfull, ← ofValueAt_zero] at hends
    rw [hsame, hsame, ofValue_marked hm noEnum found hfull, ofValue_marked hm' noEnum' found' hfull',
      ← ofValueAt_zero, ← ofValueAt_zero]
    exact ih (hv.found found) (hc.inside _) hm hs 0 hends
  | @item name entries entries' items rest ih =>
    have hitem : IsDocument p (.map entries) := by
      cases hv with
      | list parts => exact parts _ List.mem_cons_self
    have hopen (c : Context) (entries : List (Scalar × Json)) :
        ofValueAt c s name depth (.list (.map entries :: items)) =
          ofValueAt ((c.inside (.int 0)).keeping (.map entries)) s (elementName name) 0
            (.map entries) ++ [listDefinition ((c.inside (.int 0)).keeping (.map entries)) name
              (depth + 1) (.map entries)] := by
      change ofItems c s name depth _ = ofValue _ _ _ _ ++ _
      rw [ofItems, ofElement, ofValue]
    have hc' := (hc.inside (.int 0)).keeping (.map entries) (.map entries')
    rw [hopen] at hends
    rw [hopen, hopen]
    refine AlikeByName.append ?_ (.of_forall₂ (.cons ?_ .nil))
    · exact ih hitem hc' hm hs 0 fun d hd => hends d (List.mem_append_left _ hd)
    · exact alike_listDefinition hc' name _ trivial
  | @nested name inner inner' items rest ih =>
    have hinner : IsDocument p (.list inner) := by
      cases hv with
      | list parts => exact parts _ List.mem_cons_self
    have hopen (c : Context) (inner : List Json) :
        ofValueAt c s name depth (.list (.list inner :: items)) =
          ofValueAt (c.inside (.int 0)) s name (depth + 1) (.list inner) := by
      change ofItems c s name depth _ = ofItems _ _ _ _ _
      rw [ofItems, ofElement]
    rw [hopen] at hends
    rw [hopen, hopen]
    exact ih hinner (hc.inside _) hm hs (depth + 1) hends

theorem definitions_schema (options : Options) {d : Document} (hschema : d.plain = false)
    (hfull : d.value.isNull = false) : d.definitions options =
      ofValueAt ⟨d.origin, .ofOptions options, d.linked, none⟩ .empty d.name 0 d.value := by
  rw [ofValueAt_zero, Document.definitions, Document.sample, hschema, hfull, Bool.not_false,
    Bool.and_true]
  rfl

/-- Where the order of an alias block differs, a document defines the same under each name, but for
what the structs within the block know of its aliases. -/
theorem Reordered.alikeByName {d : Document} (hschema : d.plain = false) {value : Json}
    (h : Reordered options owner block block' d.name d.value value) (hperm : block'.Perm block)
    (hapart : TypesApart block) (hv : IsDocument p d.value)
    (hends : ∀ e ∈ d.definitions options, Ends e.aliases) :
    AlikeByName (Reread owner block) (d.definitions options)
      ({ d with value }.definitions options) := by
  obtain ⟨hfull, hfull'⟩ := h.full
  have hunknown : Unknown (Assoc.keys block) .empty := ⟨AliasScope.tidy_empty, fun _ _ => rfl⟩
  rw [definitions_schema options hschema hfull] at hends ⊢
  rw [definitions_schema options (d := { d with value }) hschema hfull']
  exact h.alikeByName_at hperm hapart hv ⟨rfl, rfl⟩ rfl hunknown 0 hends

end Exemplar.Inference
