import Exemplar.Proofs.AliasBlocks
import Exemplar.Proofs.ScopeBlocks
import Exemplar.Schema.Catalogue

/-! Walks on one scope. Definitions are made with scopes that are handed down. A walk has a single
scope instead, which is changed on the way: a block is entered at each struct, filled with its aliases
and left behind its fields. A walk defines the same, and its steps are blocks, so that every document
finds the scope as the documents before it did. -/
namespace Exemplar
open AliasScope

namespace Inference

/-- What happens on a walk: the block of a struct is entered or left, the alias of an entry is declared,
a type is defined, or a struct is, which takes along the aliases that are visible. -/
inductive Move where
  | enter
  | leave
  | alias (name : String) (entry : Scalar × Json)
  | define (d : Definition)
  | struct (name source : String) (fields : List Field)

/-- How far a walk is: its scope, the steps that led there, and what is defined. -/
structure Walk where
  scope : AliasScope
  steps : List Step
  defined : List Definition

/-- The steps that a move takes. What an alias stands for is settled by the scope at that moment. -/
def Move.steps (s : AliasScope) : Move → List Step
  | .enter => [.push []]
  | .leave => [.pop]
  | .alias name e => [.declare e.1 (targetOf s name e)]
  | _ => []

/-- What a move defines. The aliases of a struct are those of the scope at that moment. -/
def Move.definitions (s : AliasScope) : Move → List Definition
  | .define d => [d]
  | .struct name source fields => [{ name, source, shape := .struct fields s.snapshot }]
  | _ => []

namespace Walk

def move? (w : Walk) (m : Move) : Option Walk :=
  (w.scope.run? (m.steps w.scope)).map fun s =>
    ⟨s, w.steps ++ m.steps w.scope, w.defined ++ m.definitions w.scope⟩

def moves? (w : Walk) (moves : List Move) : Option Walk := moves.foldlM move? w

end Walk

namespace Move

/-- The moves at a map: an enum, what its marked value takes, or the block of a struct. -/
def assembleMap (c : Context) (name : String) (entries : List (Scalar × Json))
    (marked aliases : List Move) (fields : NameTable → List Move) : List Move :=
  match Markers.value? c.markers.enumKey entries with
  | some literals =>
    [.define { name, source := c.source, shape := .enum (enumValues (literalsOf literals)) c.literals }]
  | none =>
    if (Markers.value? c.markers.mapOfKey entries).isSome then marked
    else
      .enter :: (aliases ++ fields (fieldNames c entries) ++
        [.struct name c.source (fieldsOf c entries), .leave])

mutual
def ofValue (c : Context) (name : String) : Json → List Move
  | .scalar _ => []
  | .list items => ofItems c name 0 items
  | .map entries =>
    assembleMap c name entries (ofMarked c name entries) (ofAliases c name entries)
      (fun names => ofFields c name names entries)
def ofItems (c : Context) (name : String) (depth : Nat) : List Json → List Move
  | [] => [.define (listDefinition c name depth (.list []))]
  | first :: _ => ofElement (c.inside (.int 0)) name (depth + 1) first
def ofElement (c : Context) (name : String) (depth : Nat) : Json → List Move
  | .scalar s => [.define (listDefinition c name depth (.scalar s))]
  | .list items => ofItems c name depth items
  | .map entries =>
    let element := elementName name
    let c := c.keeping (.map entries)
    assembleMap c element entries (ofMarked c element entries) (ofAliases c element entries)
      (fun names => ofFields c element names entries) ++
      [.define (listDefinition c name depth (.map entries))]
def ofMarked (c : Context) (name : String) : List (Scalar × Json) → List Move
  | [] => []
  | (key, v) :: rest =>
    if c.markers.mapOfKey.any fun m => key == m then ofValue (c.inside key) name v
    else ofMarked c name rest
def ofFields (c : Context) (name : String) (names : NameTable) :
    List (Scalar × Json) → List Move
  | [] => []
  | (key, v) :: rest =>
    (if c.markers.isField key then
      ofValue (c.sample key v) (Name.member name ((names.name? key).getD "")) v
    else []) ++ ofFields c name names rest
def ofAliases (c : Context) (name : String) : List (Scalar × Json) → List Move
  | [] => []
  | (key, v) :: rest =>
    if c.markers.aliasesKey.any fun a => key == a then ofAliasBlock (c.inside key) name v
    else ofAliases c name rest
def ofAliasBlock (c : Context) (name : String) : Json → List Move
  | .map entries => ofAliasEntries c name entries
  | _ => []
/-- The moves at the entries of an alias block: each is declared and then looked into. -/
def ofAliasEntries (c : Context) (name : String) : List (Scalar × Json) → List Move
  | [] => []
  | (a, v) :: rest =>
    .alias name (a, v) ::
      (ofValue (c.inside a) (Name.member name (Identifier.ofText a.plainText)) v ++
        ofAliasEntries c name rest)
end

end Move

/-- Moves that lead from one scope to another one by certain steps and define certain types. -/
def Walks (moves : List Move) (s : AliasScope) (steps : List Step) (ds : List Definition)
    (s' : AliasScope) : Prop :=
  ∀ taken before, Walk.moves? ⟨s, taken, before⟩ moves = some ⟨s', taken ++ steps, before ++ ds⟩

/-- Moves that take blocks of steps only, which leave a scope as it is. -/
def Restores (moves : List Move) (s : AliasScope) (ds : List Definition) : Prop :=
  ∃ blocks : List (List Step), (∀ b ∈ blocks, IsBlock b) ∧ Walks moves s blocks.flatten ds s

/-- Moves inside a block, which change the table of the block only. -/
def FillsBlock (moves : List Move) (s : AliasScope) (t : Aliases) (ds : List Definition)
    (s' : AliasScope) : Prop :=
  ∃ t' steps, s' = s.push t' ∧ Inside steps ∧ Walks moves (s.push t) steps ds s'

section

variable {moves later : List Move} {s s₁ s₂ : AliasScope} {steps steps' : List Step}
  {ds ds' : List Definition} {t : Aliases} {c : Context} {name : String}

theorem Walks.nil (s : AliasScope) : Walks [] s [] [] s := by
  intro taken before
  rw [List.append_nil, List.append_nil]
  rfl

theorem Walks.append (h : Walks moves s steps ds s₁) (hlater : Walks later s₁ steps' ds' s₂) :
    Walks (moves ++ later) s (steps ++ steps') (ds ++ ds') s₂ := by
  intro taken before
  rw [Walk.moves?, List.foldlM_append, ← Walk.moves?, h taken before, ← List.append_assoc,
    ← List.append_assoc]
  exact hlater (taken ++ steps) (before ++ ds)

theorem walks_move (m : Move) (h : s.run? (m.steps s) = some s₁) :
    Walks [m] s (m.steps s) (m.definitions s) s₁ := by
  intro taken before
  have hmove : Walk.move? ⟨s, taken, before⟩ m =
      some ⟨s₁, taken ++ m.steps s, before ++ m.definitions s⟩ := by
    rw [Walk.move?, h]
    rfl
  rw [Walk.moves?, List.foldlM_cons, hmove]
  rfl

theorem Restores.nil (s : AliasScope) : Restores [] s [] := ⟨[], nofun, .nil s⟩

theorem Restores.define (s : AliasScope) (d : Definition) : Restores [.define d] s [d] :=
  ⟨[], nofun, walks_move (.define d) rfl⟩

theorem Restores.append (h : Restores moves s ds) (hlater : Restores later s ds') :
    Restores (moves ++ later) s (ds ++ ds') := by
  obtain ⟨blocks, hblocks, hwalks⟩ := h
  obtain ⟨blocks', hblocks', hwalks'⟩ := hlater
  refine ⟨blocks ++ blocks', List.forall_mem_append.mpr ⟨hblocks, hblocks'⟩, ?_⟩
  rw [List.flatten_append]
  exact hwalks.append hwalks'

/-- What happens inside the block of a struct, and that the block is entered before and left behind it. -/
theorem restores_struct {aliases fields : List Move} {own more : List Definition}
    {inside : AliasScope} (haliases : FillsBlock aliases s [] own inside)
    (hfields : Restores fields inside more) (name source : String) (fs : List Field) :
    Restores (.enter :: (aliases ++ fields ++ [.struct name source fs, .leave])) s
      (own ++ more ++ [{ name, source, shape := .struct fs inside.snapshot }]) := by
  obtain ⟨t, steps, rfl, hsteps, hown⟩ := haliases
  obtain ⟨blocks, hblocks, hmore⟩ := hfields
  have henter : Walks [.enter] s [.push []] [] (s.push []) := walks_move .enter rfl
  have hstruct : Walks [.struct name source fs] (s.push t) []
      [{ name, source, shape := .struct fs (s.push t).snapshot }] (s.push t) :=
    walks_move (.struct name source fs) rfl
  have hleave : Walks [.leave] (s.push t) [.pop] [] s := walks_move .leave rfl
  have hwalk := henter.append ((hown.append hmore).append (hstruct.append hleave))
  have hblock : IsBlock (.push [] :: (steps ++ blocks.flatten ++ [.pop])) :=
    .of [] (hsteps.append (inside_flatten hblocks))
  refine ⟨[_], List.forall_mem_singleton.mpr hblock, ?_⟩
  rw [List.flatten_singleton]
  exact hwalk

theorem restores_assembleMap {entries : List (Scalar × Json)} {marked aliases : List Move}
    {fields : NameTable → List Move} {dmarked : List Definition}
    {daliases : AliasScope → List Definition × AliasScope}
    {dfields : NameTable → AliasScope → List Definition} (hmarked : Restores marked s dmarked)
    (haliases : FillsBlock aliases s [] (daliases (s.push [])).1 (daliases (s.push [])).2)
    (hfields : ∀ names s, Restores (fields names) s (dfields names s)) :
    Restores (Move.assembleMap c name entries marked aliases fields) s
      (assembleMap c s name entries dmarked daliases dfields) := by
  rw [Move.assembleMap, assembleMap]
  cases Markers.value? c.markers.enumKey entries with
  | some literals => exact .define s _
  | none =>
    simp only []
    split
    · exact hmarked
    · exact restores_struct haliases (hfields _ _) name c.source (fieldsOf c entries)

end

mutual
theorem restores_ofValue (c : Context) (s : AliasScope) (name : String) :
    (v : Json) → Restores (Move.ofValue c name v) s (ofValue c s name v)
  | .scalar _ => by
    rw [Move.ofValue, ofValue]
    exact .nil s
  | .list items => by
    rw [Move.ofValue, ofValue]
    exact restores_ofItems c s name 0 items
  | .map entries => by
    rw [Move.ofValue, ofValue]
    exact restores_assembleMap (restores_ofMarked c s name entries)
      (fillsBlock_ofAliases c s [] name entries)
      (fun names s => restores_ofFields c s name names entries)
theorem restores_ofItems (c : Context) (s : AliasScope) (name : String) (depth : Nat) :
    (items : List Json) → Restores (Move.ofItems c name depth items) s (ofItems c s name depth items)
  | [] => by
    rw [Move.ofItems, ofItems]
    exact .define s _
  | first :: _ => by
    rw [Move.ofItems, ofItems]
    exact restores_ofElement (c.inside (.int 0)) s name (depth + 1) first
theorem restores_ofElement (c : Context) (s : AliasScope) (name : String) (depth : Nat) :
    (v : Json) → Restores (Move.ofElement c name depth v) s (ofElement c s name depth v)
  | .scalar _ => by
    rw [Move.ofElement, ofElement]
    exact .define s _
  | .list items => by
    rw [Move.ofElement, ofElement]
    exact restores_ofItems c s name depth items
  | .map entries => by
    rw [Move.ofElement, ofElement]
    let element := elementName name
    let c := c.keeping (.map entries)
    refine .append ?_ (.define s _)
    exact restores_assembleMap (restores_ofMarked c s element entries)
      (fillsBlock_ofAliases c s [] element entries)
      (fun names s => restores_ofFields c s element names entries)
theorem restores_ofMarked (c : Context) (s : AliasScope) (name : String) :
    (entries : List (Scalar × Json)) →
      Restores (Move.ofMarked c name entries) s (ofMarked c s name entries)
  | [] => by
    rw [Move.ofMarked, ofMarked]
    exact .nil s
  | (key, v) :: rest => by
    rw [Move.ofMarked, ofMarked]
    split
    · exact restores_ofValue (c.inside key) s name v
    · exact restores_ofMarked c s name rest
theorem restores_ofFields (c : Context) (s : AliasScope) (name : String) (names : NameTable) :
    (entries : List (Scalar × Json)) →
      Restores (Move.ofFields c name names entries) s (ofFields c s name names entries)
  | [] => by
    rw [Move.ofFields, ofFields]
    exact .nil s
  | (key, v) :: rest => by
    rw [Move.ofFields, ofFields]
    refine .append ?_ (restores_ofFields c s name names rest)
    split
    · exact restores_ofValue (c.sample key v) s _ v
    · exact .nil s
theorem fillsBlock_ofAliases (c : Context) (s : AliasScope) (t : Aliases) (name : String) :
    (entries : List (Scalar × Json)) → FillsBlock (Move.ofAliases c name entries) s t
      (ofAliases c (s.push t) name entries).1 (ofAliases c (s.push t) name entries).2
  | [] => by
    rw [Move.ofAliases, ofAliases]
    exact ⟨t, [], rfl, .nil, .nil _⟩
  | (key, v) :: rest => by
    rw [Move.ofAliases, ofAliases]
    split
    · exact fillsBlock_ofAliasBlock (c.inside key) s t name v
    · exact fillsBlock_ofAliases c s t name rest
theorem fillsBlock_ofAliasBlock (c : Context) (s : AliasScope) (t : Aliases) (name : String) :
    (v : Json) → FillsBlock (Move.ofAliasBlock c name v) s t
      (ofAliasBlock c (s.push t) name v).1 (ofAliasBlock c (s.push t) name v).2
  | .scalar _ => by
    rw [Move.ofAliasBlock, ofAliasBlock]
    all_goals first | exact ⟨t, [], rfl, .nil, .nil _⟩ | exact nofun
  | .list _ => by
    rw [Move.ofAliasBlock, ofAliasBlock]
    all_goals first | exact ⟨t, [], rfl, .nil, .nil _⟩ | exact nofun
  | .map entries => by
    rw [Move.ofAliasBlock, ofAliasBlock]
    exact fillsBlock_ofAliasEntries c s t name entries
theorem fillsBlock_ofAliasEntries (c : Context) (s : AliasScope) (t : Aliases) (name : String) :
    (entries : List (Scalar × Json)) → FillsBlock (Move.ofAliasEntries c name entries) s t
      (ofAliasEntries c (s.push t) name entries).1 (ofAliasEntries c (s.push t) name entries).2
  | [] => by
    rw [Move.ofAliasEntries, ofAliasEntries]
    exact ⟨t, [], rfl, .nil, .nil _⟩
  | (a, v) :: rest => by
    rw [Move.ofAliasEntries, ofAliasEntries_cons]
    let target := targetOf (s.push t) name (a, v)
    let inside := s.push (t.insert a target)
    obtain ⟨blocks, hblocks, hown⟩ := restores_ofValue (c.inside a) inside
      (Name.member name (Identifier.ofText a.plainText)) v
    obtain ⟨t', steps, hafter, hsteps, hmore⟩ :=
      fillsBlock_ofAliasEntries c s (t.insert a target) name rest
    refine ⟨t', .declare a target :: (blocks.flatten ++ steps), hafter,
      .declare a target ((inside_flatten hblocks).append hsteps), ?_⟩
    have halias : Walks [.alias name (a, v)] (s.push t) [.declare a target] [] inside :=
      walks_move (.alias name (a, v)) rfl
    exact halias.append (hown.append hmore)
end

end Inference

open Inference

namespace Document

def moves (options : Options) (d : Document) : List Move :=
  let markers := if d.plain then Markers.none else .ofOptions options
  Move.ofValue ⟨d.origin, markers, d.linked && !d.plain, none⟩ d.name d.sample

end Document

namespace AliasScope

/-- Scopes are stacks of blocks. Whatever was done to a scope, what an alias stands for is what the
snapshot says of it; a block leaves every scope as it was; and documents that are walked one after the
other on one scope define what they define apart from each other, in blocks of steps. -/
theorem stack_of_blocks :
    (∀ steps s, empty.run? steps = some s → ∀ a, s.resolve a = s.snapshot.get? a) ∧
    (∀ block, IsBlock block → ∀ s : AliasScope, s.run? block = some s) ∧
    ∀ options (docs : List Document), ∃ blocks : List (List Step), (∀ b ∈ blocks, IsBlock b) ∧
      Walk.moves? ⟨empty, [], []⟩ (docs.flatMap (Document.moves options)) =
        some ⟨empty, blocks.flatten, docs.flatMap (Document.definitions options)⟩ := by
  refine ⟨?_, fun block h s => h.run s, ?_⟩
  · intro steps s hrun a
    exact ((apart_empty.of_run hrun).get?_snapshot a).symm
  · intro options docs
    have hall : Restores (docs.flatMap (Document.moves options)) empty
        (docs.flatMap (Document.definitions options)) := by
      induction docs with
      | nil => exact .nil empty
      | cons d docs ih =>
        rw [List.flatMap_cons, List.flatMap_cons]
        exact (restores_ofValue _ empty d.name d.sample).append ih
    obtain ⟨blocks, hblocks, hwalk⟩ := hall
    exact ⟨blocks, hblocks, hwalk [] []⟩

def shadowing : List Step :=
  [.push [(.str "A", "outer")], .push [], .declare (.str "A") "inner"]

/-- In the inner block the alias stands for what is declared there. When both blocks are left, with
another alias declared in between, nothing is left of them. -/
theorem stack_of_blocks_shadowing :
    (∃ s, empty.run? shadowing = some s ∧ s.resolve (.str "A") = some "inner" ∧
      s.snapshot.get? (.str "A") = some "inner") ∧
    empty.run? (shadowing ++ [.pop, .declare (.str "B") "own", .pop]) = some empty := by
  let s : AliasScope := ⟨[[(.str "A", "inner")], [(.str "A", "outer")]]⟩
  have hrun : empty.run? shadowing = some s := rfl
  have hresolve : s.resolve (.str "A") = some "inner" := by decide
  have hinside : Inside [.push [], .declare (.str "A") "inner", .pop, .declare (.str "B") "own"] :=
    .block [] (.declare (.str "A") "inner" .nil) (.declare (.str "B") "own" .nil)
  refine ⟨⟨s, hrun, hresolve, ?_⟩, ?_⟩
  · exact (stack_of_blocks.1 shadowing s hrun (.str "A")).symm.trans hresolve
  · exact stack_of_blocks.2.1 _ (.of [(.str "A", "outer")] hinside) empty

end AliasScope
end Exemplar
