import Exemplar.Proofs.ClosedTypes
import Exemplar.Proofs.Outlines
import Exemplar.Proofs.SeparateDocuments
import Mathlib.Data.List.Perm.Basic

/-! Sources in another order. Resolving references only asks what stands under which name, so sources
that have nothing to do with one another give the same types in whatever order they are given. Only the
inner types of a type know the order of the table. -/
namespace Exemplar
open Inference

namespace TypeTable

theorem resolve_inner (types : TypeTable) (d : Definition) (inner : Assoc String String) :
    types.resolve { d with inner } = { types.resolve d with inner } := by
  obtain ⟨name, source, shape, edition, errors, old⟩ := d
  cases shape with
  | struct fields aliases => rfl
  | enum values origin => rfl
  | list depth sample element =>
    simp only [resolve]
    cases types.elementType? name sample <;> rfl

end TypeTable

/-- Tables in which the same stands under every name finish a definition alike, but for the order of
its inner types. -/
theorem Inference.resolvedIn_congr {types types' : TypeTable}
    (h : ∀ name, types'.get? name = types.get? name) (d : Definition) :
    { resolvedIn types' d with inner := (resolvedIn types d).inner } = resolvedIn types d := by
  have hfinished : resolvedIn types d = { types.resolve d with inner := types.innerTypes d.name } :=
    types.resolve_inner d _
  have hfinished' : resolvedIn types' d = { types.resolve d with inner := types'.innerTypes d.name } := by
    refine ((TypeTable.outlined_of_get? h).resolve fun _ => ?_).trans (types.resolve_inner d _)
    simp only [TypeTable.enclosingStruct, h]
  rw [hfinished, hfinished']

/-- The same definition with its inner types in another order. Without a name it may have another inner
type under a segment if there are two for it, one of them without a namespace. -/
structure Definition.Reordered (d d' : Definition) : Prop where
  same : { d' with inner := d.inner } = d
  segments : d'.inner.keys.Perm d.inner.keys
  inner : ∀ segment, d'.inner.get? segment = d.inner.get? segment ∨
    d.name = "" ∧ ∃ n n', d.inner.get? segment = some n ∧ d'.inner.get? segment = some n' ∧
      [n, n'].Perm [segment, Name.member "" segment]

namespace Registry

/-- The same registry in another order: the types, the lists of the sources and what was replaced. -/
structure Reordered (r r' : Registry) : Prop where
  names : r'.names.Perm r.names
  types : ∀ name, Option.Rel Definition.Reordered (r.get? name) (r'.get? name)
  files : r'.files.Perm r.files
  replaced : r'.replaced.Perm r.replaced

variable {r r' : Registry}

/-- Without a namespace a segment stands for itself or for itself behind a dot. -/
theorem eq_of_mem_namesAt {segment n : String} (h : n ∈ r.namesAt "" segment) :
    n = segment ∨ n = Name.member "" segment := by
  obtain ⟨-, h⟩ := List.mem_filter.mp h
  obtain ⟨hspace, hsegment⟩ := of_decide_eq_true h
  rcases Name.segment_cases n with ⟨-, hself⟩ | hmember
  · exact .inl (hself.symm.trans hsegment)
  · rw [hspace, hsegment] at hmember
    exact .inr hmember.symm

/-- The last names for a segment in two orders of the same names. -/
theorem getLast?_namesAt_perm (hnames : r'.names.Perm r.names) (space segment : String) :
    (r'.namesAt space segment).getLast? = (r.namesAt space segment).getLast? ∨
      space = "" ∧ ∃ n n', (r.namesAt space segment).getLast? = some n ∧
        (r'.namesAt space segment).getLast? = some n' ∧
        [n, n'].Perm [segment, Name.member "" segment] := by
  by_cases hspace : space = ""
  · subst hspace
    have hperm : (r'.namesAt "" segment).Perm (r.namesAt "" segment) := hnames.filter _
    cases hlast : (r.namesAt "" segment).getLast? with
    | none =>
      rw [List.getLast?_eq_none_iff.mp hlast, List.perm_nil] at hperm
      rw [hperm]
      exact .inl rfl
    | some n =>
      cases hlast' : (r'.namesAt "" segment).getLast? with
      | none =>
        rw [List.getLast?_eq_none_iff.mp hlast', List.nil_perm] at hperm
        rw [hperm] at hlast
        cases hlast
      | some n' =>
        rcases eq_of_mem_namesAt (List.mem_of_getLast? hlast) with rfl | rfl <;>
          rcases eq_of_mem_namesAt (List.mem_of_getLast? hlast') with rfl | rfl
        · exact .inl rfl
        · exact .inr ⟨rfl, _, _, rfl, rfl, .refl _⟩
        · exact .inr ⟨rfl, _, _, rfl, rfl, .swap _ _ _⟩
        · exact .inl rfl
  · left
    refine Option.ext fun n => ?_
    rw [getLast?_namesAt _ hspace, getLast?_namesAt _ hspace, hnames.mem_iff]

/-- A catalogue whose entries are in another order gives the same registry in another order. -/
theorem reordered_finish {c c' : Catalogue} {log log' : List Definition} (h : c.Accounts log)
    (h' : c'.Accounts log') (hopen : c.finished = false) (hopen' : c'.finished = false)
    (hshuffled : c.Shuffled c') : (ofCatalogue c.finish).Reordered (ofCatalogue c'.finish) := by
  let r := ofCatalogue c.finish
  let r' := ofCatalogue c'.finish
  have hget (name : String) : c'.types.get? name = c.types.get? name :=
    Assoc.get?_perm h.once hshuffled.types name
  have hnames : r'.names.Perm r.names := by
    rw [names_finish hopen, names_finish hopen']
    exact hshuffled.types.map Prod.fst
  have htype (d : Definition) : (resolvedIn c.types d).Reordered (resolvedIn c'.types d) := by
    obtain ⟨honce, hinner⟩ := inner_finish h hopen d
    obtain ⟨honce', hinner'⟩ := inner_finish h' hopen' d
    have hname := (resolvedIn_name_source_ref c.types d).1
    have hlast (segment : String) := getLast?_namesAt_perm hnames d.name segment
    refine ⟨resolvedIn_congr hget d, ?_, fun segment => ?_⟩
    · rw [List.perm_ext_iff_of_nodup honce' honce]
      intro segment
      rw [← Assoc.has_iff, ← Assoc.has_iff, Assoc.has, Assoc.has, hinner, hinner']
      rcases hlast segment with hsame | ⟨-, n, n', hn, hn', -⟩
      · rw [hsame]
      · rw [hn, hn']
        rfl
    · rw [hinner, hinner', hname]
      exact hlast segment
  refine ⟨hnames, fun name => ?_, ?_, ?_⟩
  · have hsame : c'.get? name = c.get? name := hget name
    rw [get?_finish hopen, get?_finish hopen', hsame]
    cases c.get? name with
    | none => exact .none
    | some d => exact .some (htype d)
  · rw [files_finish, files_finish]
    exact hshuffled.files
  · rw [replaced_finish, replaced_finish]
    exact hshuffled.replaced

end Registry

namespace Source

/-- Two sources that have nothing to do with one another. -/
def Separate (s s' : Source) : Prop :=
  Name.Unrelated s.1.name s'.1.name ∧ s.1.identity ≠ s'.1.identity

variable {s : Source} {sources sources' : List Source} {docs : List Document}

theorem name_origin_document? [Json.Reader] {d : Document} (h : s.document? = .ok d) :
    d.name = s.1.name ∧ d.origin = s.1.identity := by
  obtain ⟨heading, content⟩ := s
  rw [document?] at h
  cases hcontent : content.whileBuilding with
  | error e =>
    rw [hcontent] at h
    cases h
  | ok data =>
    rw [hcontent] at h
    cases h
    exact ⟨rfl, heading.origin_document data⟩

theorem separate_documents [Json.Reader] (h : List.Forall₂ (fun s d => document? s = .ok d) sources docs)
    (hsources : sources.Pairwise Separate) : docs.Pairwise Document.Separate := by
  induction h with
  | nil => exact .nil
  | @cons s d sources docs hd hdocs ih =>
    obtain ⟨hs, hsources⟩ := List.pairwise_cons.mp hsources
    refine List.pairwise_cons.mpr ⟨fun d' hd' => ?_, ih hsources⟩
    obtain ⟨s', hs', hread⟩ := exists_source hdocs d' hd'
    obtain ⟨hname, horigin⟩ := name_origin_document? hd
    obtain ⟨hname', horigin'⟩ := name_origin_document? hread
    rw [Document.Separate, hname, hname', horigin, horigin']
    exact hs s' hs'

theorem perm_inOrder (sources : List Source) : (inOrder sources).Perm sources := by
  have hsplit := List.filter_append_perm (fun s : Source => s.1.isPlain == false) sources
  have hother : ofGroup true sources = sources.filter fun s => !(s.1.isPlain == false) := by
    refine List.filter_congr fun s _ => ?_
    cases s.1.isPlain <;> rfl
  rw [inOrder, hother]
  exact hsplit

end Source

namespace Builder

variable {b : Builder} {sources sources' : List Source}

/-- Sources with different identities and unrelated names give the same registry in every order, but
for the order of what is in it. What succeeds in one order succeeds in every other. -/
theorem build_reordered [Json.Reader] (b : Builder) (hperm : sources'.Perm sources)
    (hidentities : (sources.map fun s => s.1.identity).Nodup)
    (hnames : sources.Pairwise fun s s' => Name.Unrelated s.1.name s'.1.name) {r : Registry}
    (hr : (b.build sources).1 = .ok r) :
    ∃ r', (b.build sources').1 = .ok r' ∧ r.Reordered r' := by
  have hseparate : sources.Pairwise Source.Separate :=
    hnames.and (List.pairwise_map.mp hidentities)
  have hsymm {s s' : Source} (h : s.Separate s') : s'.Separate s := ⟨h.1.symm, h.2.symm⟩
  obtain ⟨hidle, docs, hdocs, hadds, rfl⟩ := Source.build_ok_iff.mp hr
  have hinOrder : (Source.inOrder sources').Perm (Source.inOrder sources) :=
    ((Source.perm_inOrder sources').trans hperm).trans (Source.perm_inOrder sources).symm
  obtain ⟨docs', hdocs', hdocsPerm⟩ := List.perm_comp_forall₂ hinOrder hdocs
  have hdocsSeparate : docs.Pairwise Document.Separate :=
    Source.separate_documents hdocs
      (((Source.perm_inOrder sources).pairwise_iff hsymm).mpr hseparate)
  have hdocsSeparate' : docs'.Pairwise Document.Separate :=
    (hdocsPerm.pairwise_iff fun {_ _} h => Document.Separate.symm h).mpr hdocsSeparate
  have hadds' : Catalogue.empty.AddsAll b.options docs' := by
    rw [Catalogue.addsAll_separate hdocsSeparate fun d _ => Catalogue.spares_empty d] at hadds
    rw [Catalogue.addsAll_separate hdocsSeparate' fun d _ => Catalogue.spares_empty d]
    exact fun d hd => hadds d (hdocsPerm.mem_iff.mp hd)
  refine ⟨_, Source.build_ok_iff.mpr ⟨hidle, docs', hdocs', hadds', rfl⟩, ?_⟩
  exact Registry.reordered_finish (Catalogue.accounts_addDocuments b.options docs)
    (Catalogue.accounts_addDocuments b.options docs')
    (Catalogue.finished_addDocuments b.options .empty docs)
    (Catalogue.finished_addDocuments b.options .empty docs')
    (Catalogue.shuffled_addDocuments hdocsSeparate hdocsPerm b.options)

def referringSource : Source :=
  ({ name := "M", origin := some "M.jschema" },
    .octets (Text.encodeString "\x7b\"a\": \"N.b\"\x7d"))

def referredSource : Source :=
  ({ name := "N", origin := some "N.jschema" },
    .octets (Text.encodeString "\x7b\"b\": \x7b\x7d\x7d"))

theorem build_reordered_referring :
    [referredSource, referringSource].Perm [referringSource, referredSource] ∧
    ([referringSource, referredSource].map fun s => s.1.identity).Nodup ∧
    ([referringSource, referredSource].Pairwise fun s s' => Name.Unrelated s.1.name s'.1.name) ∧
    ∃ r r', ((Builder.new {}).build [referringSource, referredSource]).1 = .ok r ∧
      ((Builder.new {}).build [referredSource, referringSource]).1 = .ok r' ∧ r.Reordered r' := by
  have hperm : [referredSource, referringSource].Perm [referringSource, referredSource] :=
    .swap _ _ _
  have hidentities : ([referringSource, referredSource].map fun s => s.1.identity).Nodup := by decide
  have hnames : [referringSource, referredSource].Pairwise fun s s' =>
      Name.Unrelated s.1.name s'.1.name := by decide
  have hbuilds : ∃ r, ((Builder.new {}).build [referringSource, referredSource]).1 = .ok r :=
    Registry.exists_of_isSome (by decide +kernel)
  obtain ⟨r, hr⟩ := hbuilds
  obtain ⟨r', hr', hreordered⟩ := build_reordered (Builder.new {}) hperm hidentities hnames hr
  exact ⟨hperm, hidentities, hnames, r, r', hr, hr', hreordered⟩

def namelessSource : Source :=
  ({ name := "", origin := some "nameless.jschema" },
    .octets (Text.encodeString "\x7b\"x\": \x7b\x7d\x7d"))

def segmentSource : Source :=
  ({ name := "x", origin := some "x.jschema" }, .octets (Text.encodeString "\x7b\x7d"))

/-- The later one of `.x` and `x` is the inner type of the type without a name. -/
theorem inner_of_order :
    [segmentSource, namelessSource].Perm [namelessSource, segmentSource] ∧
    ([namelessSource, segmentSource].map fun s => s.1.identity).Nodup ∧
    ([namelessSource, segmentSource].Pairwise fun s s' => Name.Unrelated s.1.name s'.1.name) ∧
    ∃ r r' d d', ((Builder.new {}).build [namelessSource, segmentSource]).1 = .ok r ∧
      ((Builder.new {}).build [segmentSource, namelessSource]).1 = .ok r' ∧
      r.get? "" = some d ∧ r'.get? "" = some d' ∧
      d.inner.get? "x" = some "x" ∧ d'.inner.get? "x" = some ".x" := by
  have hfirst : ∃ r ∈ ((Builder.new {}).build [namelessSource, segmentSource]).1.toOption,
      ∃ d ∈ r.get? "", d.inner.get? "x" = some "x" := by decide +kernel
  have hlast : ∃ r ∈ ((Builder.new {}).build [segmentSource, namelessSource]).1.toOption,
      ∃ d ∈ r.get? "", d.inner.get? "x" = some ".x" := by decide +kernel
  obtain ⟨r, hr, d, hd, hinner⟩ := hfirst
  obtain ⟨r', hr', d', hd', hinner'⟩ := hlast
  exact ⟨.swap _ _ _, by decide, by decide, r, r', d, d', ok_of_toOption hr,
    ok_of_toOption hr', hd, hd', hinner, hinner'⟩

end Builder
end Exemplar
