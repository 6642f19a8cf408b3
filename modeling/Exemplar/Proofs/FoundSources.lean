import Exemplar.Text.Console
import Exemplar.Proofs.Digits
import Exemplar.Proofs.FoundFiles
import Mathlib.Data.List.Nodup

/-! The sources below a folder. Each file with an extension gives one, named by the way to it; names of
files with the same extension agree only where dots and backslashes in the names of files and folders are
taken for the dots between names. -/
namespace Exemplar.Discovery

open FileTree

variable {console : Text.Console} {t : FileTree} {e base : String} {root : Path} {front way : List String}
  {f g : List String × List UInt8}

def dot (c : Char) : Char := if c = '/' || c = '\\' then '.' else c

/-- The names on a way, the last one without its extension. -/
def bare (e : String) (way : List String) : List String :=
  let last := (way.getLastD "").toList
  way.dropLast ++ [String.ofList (last.take (last.length - e.toList.length - 1))]

/-- The name of a type: names with dots between them, and dots for the slashes in them. -/
def dotted (names : List String) : String :=
  String.ofList (['.'].intercalate (names.map fun name => name.toList.map dot))

def segments (name : String) : List (List Char) := Path.cut '.' (name.toList.map dot)

def sourceAt (root : Path) (e : String) (f : List String × List UInt8) : Source :=
  (⟨dotted (bare e f.1), .ofExtension e, some (root.append f.1).text⟩, .octets f.2)

theorem bare_extension (e base : String) (front : List String) :
    bare e (front ++ [base ++ "." ++ e]) = front ++ [base] := by
  have hlength : (base.toList ++ '.' :: e.toList).length - e.toList.length - 1 =
      base.toList.length := by
    simp only [List.length_append, List.length_cons]
    omega
  simp only [bare, List.dropLast_concat, List.getLastD_concat]
  have hchars : (base ++ "." ++ e).toList = base.toList ++ '.' :: e.toList := by simp
  rw [hchars, hlength, List.take_left, String.ofList_toList]

/-- Two names of types are the same if and only if the names on the ways have the same parts. -/
theorem dotted_eq_iff {a b : List String} (ha : a ≠ []) (hb : b ≠ []) :
    dotted a = dotted b ↔ a.flatMap segments = b.flatMap segments := by
  have hcut : ∀ {names : List String}, names ≠ [] →
      Path.cut '.' (dotted names).toList = names.flatMap segments := by
    intro names hne
    rw [dotted, String.toList_ofList, Path.cut_intercalate '.' (by simpa using hne),
      List.flatMap_map]
    rfl
  rw [← hcut ha, ← hcut hb, Path.cut_inj, String.toList_inj]

/-- A name without dots and slashes. -/
def IsPlain (name : String) : Prop := ∀ c ∈ ['.', '\\', '/'], c ∉ name.toList

theorem segments_plain {name : String} (h : IsPlain name) : segments name = [name.toList] := by
  have hsame : name.toList.map dot = name.toList := by
    refine (List.map_congr_left fun c hc => ?_).trans (List.map_id _)
    refine if_neg fun hslash => ?_
    have hc' : c = '/' ∨ c = '\\' := by simpa using hslash
    rcases hc' with rfl | rfl
    · exact h '/' (by decide) hc
    · exact h '\\' (by decide) hc
  rw [segments, hsame, Path.cut_of_notMem (h '.' (by decide))]

theorem dotted_inj {a b : List String} (ha : a ≠ []) (hb : b ≠ []) (hplain : ∀ n ∈ a ++ b, IsPlain n)
    (h : dotted a = dotted b) : a = b := by
  have hnames : ∀ {names : List String}, (∀ n ∈ names, IsPlain n) →
      names.flatMap segments = names.map String.toList := by
    intro names hall
    induction names with
    | nil => rfl
    | cons n names ih =>
      rw [List.flatMap_cons, segments_plain (hall n List.mem_cons_self),
        ih fun m hm => hall m (List.mem_cons_of_mem _ hm)]
      rfl
  rw [dotted_eq_iff ha hb, hnames fun n hn => hplain n (List.mem_append_left _ hn),
    hnames fun n hn => hplain n (List.mem_append_right _ hn)] at h
  exact List.map_injective_iff.mpr (fun _ _ => String.toList_inj.mp) h

/-- A file gives the name that the way to it writes with dots, if that name has a dot. -/
theorem typeName_extension (e base : String) (front : List String) :
    typeName (Path.joined (front ++ [base ++ "." ++ e])) e =
      if (dotted (front ++ [base])).toList.contains '.' then .ok (dotted (front ++ [base]))
      else .error (.noNamespace (Path.joined (front ++ [base ++ "." ++ e]))) := by
  have hplace : (Path.joined (front ++ [base ++ "." ++ e])).toList =
      ['/'].intercalate ((front ++ [base]).map String.toList) ++ '.' :: e.toList := by
    rw [Path.joined, String.toList_intercalate, List.map_append, List.map_append]
    have hlast : [base ++ "." ++ e].map String.toList = [base.toList ++ '.' :: e.toList] := by simp
    rw [hlast]
    exact Path.intercalate_append_last '/' _ _ _
  have hname : (['/'].intercalate ((front ++ [base]).map String.toList)).map dot =
      (dotted (front ++ [base])).toList := by
    rw [Path.map_intercalate, dotted, String.toList_ofList, List.map_map]
    rfl
  simp only [typeName, hplace]
  generalize ['/'].intercalate ((front ++ [base]).map String.toList) = stem at hname
  have hkept : upTo (((stem ++ '.' :: e.toList).length : Int) - e.toList.length - 1)
      (stem ++ '.' :: e.toList) = stem := by
    have hplace : ((stem ++ '.' :: e.toList).length : Int) - e.toList.length - 1 = stem.length := by
      rw [List.length_append, List.length_cons]
      omega
    rw [hplace, upTo, if_neg (by omega), Int.toNat_natCast, List.take_left]
  have hmap : (stem.map fun c => if (c = '/' || c = '\\') = true then '.' else c) =
      (dotted (front ++ [base])).toList := hname
  rw [hkept, hmap, String.ofList_toList]

section

variable {α β ε : Type}

theorem of_bind_ok {x : Except ε α} {f : α → Except ε β} {y : β} (h : x >>= f = .ok y) :
    ∃ a, x = .ok a ∧ f a = .ok y := by
  cases x with
  | error fault => cases h
  | ok a => exact ⟨a, rfl, h⟩

/-- What a successful run gives for each element of a list, if each success has one value. -/
theorem of_mapM_ok {f : α → Except ε β} {g : α → β} {xs : List α} {ys : List β}
    (hf : ∀ x ∈ xs, ∀ y, f x = .ok y → y = g x) (h : xs.mapM f = .ok ys) : ys = xs.map g := by
  induction xs generalizing ys with
  | nil =>
    rw [List.mapM_nil] at h
    exact (Except.ok.inj h).symm
  | cons x xs ih =>
    rw [List.mapM_cons] at h
    obtain ⟨y, hy, h⟩ := of_bind_ok h
    obtain ⟨zs, hzs, h⟩ := of_bind_ok h
    obtain rfl := Except.ok.inj h
    rw [List.map_cons, hf x List.mem_cons_self y hy,
      ih (fun z hz => hf z (List.mem_cons_of_mem _ hz)) hzs]

end

theorem ofFound_ok {s : Source} (hf : HasExtension e f.1) (h : ofFound root e f = .ok s) :
    s = sourceAt root e f := by
  obtain ⟨front, base, hway⟩ := hf
  rw [ofFound] at h
  obtain ⟨name, hname, h⟩ := of_bind_ok h
  rw [hway, typeName_extension] at hname
  split at hname
  · obtain rfl := Except.ok.inj hname
    obtain rfl := Except.ok.inj h
    rw [sourceAt, hway, bare_extension]
  · cases hname

/-- The sources below a folder are those of all files with an extension, one extension after the
other. -/
theorem inFolder_ok {extensions : List String} {sources : List Source} (ht : t.Proper)
    (he : ∀ e ∈ extensions, Literal e) (h : inFolder console root t extensions = .ok sources) :
    ∃ files : String → List (List String × List UInt8),
      (∀ e ∈ extensions, AllFiles t e (files e)) ∧
      sources = extensions.flatMap fun e => (files e).map (sourceAt root e) := by
  have hall : ∀ e, ∃ files, Literal e → filesWith t e = .ok files ∧ AllFiles t e files := by
    intro e
    by_cases hliteral : Literal e
    · obtain ⟨files, hfiles⟩ := allFiles_filesWith ht hliteral
      exact ⟨files, fun _ => hfiles⟩
    · exact ⟨[], fun h => absurd h hliteral⟩
  choose files hfiles using hall
  refine ⟨files, fun e hmem => (hfiles e (he e hmem)).2, ?_⟩
  rw [inFolder] at h
  obtain ⟨groups, hgroups, h⟩ := of_bind_ok h
  obtain ⟨-, -, h⟩ := of_bind_ok h
  obtain rfl := Except.ok.inj h
  have hgroup := of_mapM_ok (g := fun e => (files e).map (sourceAt root e))
    (fun e hmem group hgroup => ?_) hgroups
  · rw [hgroup, List.flatMap_def]
  · obtain ⟨hfound, hfiles⟩ := hfiles e (he e hmem)
    rw [hfound] at hgroup
    refine of_mapM_ok (fun f hf s hs => ofFound_ok ?_ hs) hgroup
    exact ((hfiles.mem_iff f.1 f.2).mp hf).2

theorem below_folder {files : Files} {extensions : List String} {sources : List Source}
    (h : below files root extensions console = .ok sources) :
    ∃ t, files root = .ok t ∧ inFolder console root t extensions = .ok sources := by
  rw [below] at h
  split at h
  · next es hfiles => exact ⟨_, hfiles, h⟩
  · cases h
  · cases h

/-- Two files get one name if and only if the names on the ways to them, the extension apart, have the
same parts between dots and slashes. -/
theorem name_eq_iff (root : Path) (e : String) (f g : List String × List UInt8) :
    (sourceAt root e f).1.name = (sourceAt root e g).1.name ↔
      (bare e f.1).flatMap segments = (bare e g.1).flatMap segments :=
  dotted_eq_iff (by simp [bare]) (by simp [bare])

theorem bare_inj {way way' : List String} (h : HasExtension e way) (h' : HasExtension e way')
    (hbare : bare e way = bare e way') : way = way' := by
  obtain ⟨front, base, rfl⟩ := h
  obtain ⟨front', base', rfl⟩ := h'
  rw [bare_extension, bare_extension] at hbare
  obtain ⟨rfl, hlast⟩ := List.append_inj' hbare rfl
  rw [List.singleton_inj.mp hlast]

theorem slash_bare (hway : HasExtension e way) (hslash : ∀ n ∈ way, '/' ∉ n.toList) :
    ∀ n ∈ bare e way, '/' ∉ n.toList := by
  obtain ⟨front, base, rfl⟩ := hway
  rw [bare_extension]
  intro n hn
  rcases List.mem_append.mp hn with hn | hn
  · exact hslash n (List.mem_append_left _ hn)
  · obtain rfl := List.mem_singleton.mp hn
    have hlast := hslash _ (List.mem_append_right _ (List.mem_singleton_self _))
    simp only [String.toList_append, List.mem_append, not_or] at hlast
    exact hlast.1.1

/-- Different files without dots and backslashes in the names on the way have different names. -/
theorem name_ne {files : List (List String × List UInt8)} (ht : t.Proper) (hfiles : AllFiles t e files)
    (hf : f ∈ files) (hg : g ∈ files) (hne : f ≠ g)
    (hplain : ∀ n ∈ bare e f.1 ++ bare e g.1, '.' ∉ n.toList ∧ '\\' ∉ n.toList) :
    (sourceAt root e f).1.name ≠ (sourceAt root e g).1.name := by
  obtain ⟨hleads, hway⟩ := (hfiles.mem_iff f.1 f.2).mp hf
  obtain ⟨hleads', hway'⟩ := (hfiles.mem_iff g.1 g.2).mp hg
  have hall : ∀ n ∈ bare e f.1 ++ bare e g.1, IsPlain n := by
    intro n hn c hc
    simp only [List.mem_cons, List.not_mem_nil, or_false] at hc
    rcases hc with rfl | rfl | rfl
    · exact (hplain n hn).1
    · exact (hplain n hn).2
    · rcases List.mem_append.mp hn with hn | hn
      · exact slash_bare hway (hleads.slash ht) n hn
      · exact slash_bare hway' (hleads'.slash ht) n hn
  intro hname
  have hsame := bare_inj hway hway' (dotted_inj (by simp [bare]) (by simp [bare]) hall hname)
  rw [← hsame] at hleads'
  exact hne (Prod.ext hsame (FileTree.file.inj (hleads.unique ht hleads')))

theorem literal_extensions : ∀ e ∈ extensions, Literal e := by
  intro e he
  simp only [extensions, List.mem_cons, List.not_mem_nil, or_false] at he
  have hall : e.toList.all (fun c => c ∉ ['*', '?', '[', '/']) = true := by
    rcases he with rfl | rfl <;> decide
  exact fun c hc => of_decide_eq_true (List.all_eq_true.mp hall c hc)

theorem exists_mapM {f : α → Except ε β} {xs : List α} (hf : ∀ x ∈ xs, ∃ y, f x = .ok y) :
    ∃ ys, xs.mapM f = .ok ys := by
  induction xs with
  | nil => exact ⟨[], rfl⟩
  | cons x xs ih =>
    obtain ⟨y, hy⟩ := hf x List.mem_cons_self
    obtain ⟨ys, hys⟩ := ih fun z hz => hf z (List.mem_cons_of_mem _ hz)
    refine ⟨y :: ys, ?_⟩
    rw [List.mapM_cons, hy, hys]
    rfl

theorem unmarked_natText (n : Nat) : Text.Markup.Unmarked (Decimal.natText n).toList := by
  rw [Decimal.natText, String.toList_ofList]
  intro c hc
  have hdigit := Decimal.isDigit_of_mem_digits hc
  constructor <;> rintro rfl <;> exact absurd hdigit (by decide)

/-- The number of sources can be announced if no bracket and no backslash is in the path. -/
theorem print_announcement (console : Text.Console) (hroot : Text.Markup.Unmarked root.text.toList)
    (count : Nat) : console.print (announcement root count) = .ok () := by
  have hmarked : Text.Markup.Unmarked ("Found ".toList ++ (Decimal.natText count).toList ++
      " schema sources under ".toList ++ root.text.toList) := by
    have hfound : Text.Markup.Unmarked "Found ".toList := by decide
    have hunder : Text.Markup.Unmarked " schema sources under ".toList := by decide
    intro c hc
    simp only [List.mem_append] at hc
    rcases hc with ((hc | hc) | hc) | hc
    · exact hfound c hc
    · exact unmarked_natText count c hc
    · exact hunder c hc
    · exact hroot c hc
  have htext : announcement root count = "[bold blue]" ++ ("Found " ++ Decimal.natText count ++
      " schema sources under " ++ root.text) ++ "[/bold blue]" := by
    have hopen : "[bold blue]Found " = "[bold blue]" ++ "Found " := by decide
    change "[bold blue]Found " ++ Decimal.natText count ++ " schema sources under " ++ root.text ++
      "[/bold blue]" = _
    simp only [hopen, String.append_assoc]
  have hplain : Text.Markup.Unmarked
      ("Found " ++ Decimal.natText count ++ " schema sources under " ++ root.text).toList := by
    simpa only [String.toList_append] using hmarked
  rw [htext]
  exact (console.unmarked _ hplain).2

/-- A file in a folder has a dot in its name. -/
theorem dot_mem_dotted (hfolder : 2 ≤ way.length) : '.' ∈ (dotted (bare e way)).toList := by
  obtain ⟨a, b, rest, hbare⟩ : ∃ a b rest, bare e way = a :: b :: rest := by
    have hlength : (bare e way).length = way.length := by
      simp only [bare, List.length_append, List.length_dropLast, List.length_singleton]
      omega
    match hbare : bare e way with
    | [] | [_] =>
      rw [hbare] at hlength
      simp only [List.length_nil, List.length_singleton] at hlength
      omega
    | a :: b :: rest => exact ⟨a, b, rest, rfl⟩
  rw [hbare, dotted, String.toList_ofList, List.map_cons, List.map_cons,
    List.intercalate_cons_cons]
  simp

/-- The sources below a folder are found if the names of all files with an extension have a dot. -/
theorem inFolder_total (console : Text.Console) {extensions : List String} (ht : t.Proper)
    (he : ∀ e ∈ extensions, Literal e) (hroot : Text.Markup.Unmarked root.text.toList)
    (hnames : ∀ e ∈ extensions, ∀ way data, Leads t way (.file data) → HasExtension e way →
      '.' ∈ (dotted (bare e way)).toList) :
    ∃ sources, inFolder console root t extensions = .ok sources := by
  have hgroup : ∀ e ∈ extensions, ∃ group,
      (do (← filesWith t e).mapM (ofFound root e)) = Except.ok group := by
    intro e hmem
    obtain ⟨files, hfound, hfiles⟩ := allFiles_filesWith ht (he e hmem)
    rw [hfound]
    refine exists_mapM fun f hf => ?_
    obtain ⟨hleads, hway⟩ := (hfiles.mem_iff f.1 f.2).mp hf
    have hdot := hnames e hmem _ _ hleads hway
    obtain ⟨front, base, hway⟩ := hway
    rw [hway, bare_extension] at hdot
    have hname := typeName_extension e base front
    rw [if_pos (List.contains_iff_mem.mpr hdot), ← hway] at hname
    exact ⟨_, by rw [ofFound, hname]; rfl⟩
  obtain ⟨groups, hgroups⟩ := exists_mapM hgroup
  have hannounced := print_announcement console hroot groups.flatten.length
  refine ⟨groups.flatten, ?_⟩
  rw [inFolder, hgroups]
  change ((console.print (announcement root groups.flatten.length)).mapError
    DiscoveryFault.announcement >>= fun _ => .ok groups.flatten) = _
  rw [hannounced]
  rfl

/-- The sources below a path are those of all files with the extension of schemas, in order, and then
those of all files with the extension of samples, in order. Files with one extension get the same name if
and only if the names on the ways have the same parts between dots and slashes, so never if no dot and no
backslash is in them. -/
theorem sources_below {files : Files} {root : Path} {sources : List Source}
    (hproper : ∀ t, files root = .ok t → t.Proper)
    (h : below files root extensions console = .ok sources) :
    ∃ t schemas samples, files root = .ok t ∧
      AllFiles t "jschema" schemas ∧ AllFiles t "json" samples ∧
      sources = schemas.map (sourceAt root "jschema") ++ samples.map (sourceAt root "json") ∧
      ∀ e group, (e, group) ∈ [("jschema", schemas), ("json", samples)] →
        ∀ f ∈ group, ∀ g ∈ group,
          ((sourceAt root e f).1.name = (sourceAt root e g).1.name ↔
            (bare e f.1).flatMap segments = (bare e g.1).flatMap segments) ∧
          (f ≠ g → (∀ n ∈ bare e f.1 ++ bare e g.1, '.' ∉ n.toList ∧ '\\' ∉ n.toList) →
            (sourceAt root e f).1.name ≠ (sourceAt root e g).1.name) := by
  obtain ⟨t, hroot, hfolder⟩ := below_folder h
  have ht := hproper t hroot
  obtain ⟨found, hfound, rfl⟩ := inFolder_ok ht literal_extensions hfolder
  have hschemas : AllFiles t "jschema" (found "jschema") := hfound _ List.mem_cons_self
  have hsamples : AllFiles t "json" (found "json") :=
    hfound _ (List.mem_cons_of_mem _ List.mem_cons_self)
  refine ⟨t, found "jschema", found "json", hroot, hschemas, hsamples, ?_, ?_⟩
  · exact congrArg (_ ++ ·) (List.append_nil _)
  · intro e group hgroup f hf g hg
    have hfiles : AllFiles t e group := by
      simp only [List.mem_cons, List.not_mem_nil, or_false, Prod.mk.injEq] at hgroup
      rcases hgroup with ⟨rfl, rfl⟩ | ⟨rfl, rfl⟩
      · exact hschemas
      · exact hsamples
    exact ⟨name_eq_iff root e f g, name_ne ht hfiles hf hg⟩

theorem leads_folder_iff {es : List (String × FileTree)} {data : List UInt8} :
    Leads (.folder es) way (.file data) ↔
      ∃ e ∈ es, ∃ rest, way = e.1 :: rest ∧ Leads e.2 rest (.file data) := by
  constructor
  · rintro (_ | ⟨hname, hrest⟩)
    exact ⟨_, hname, _, rfl, hrest⟩
  · rintro ⟨⟨name, found⟩, hname, rest, rfl, hrest⟩
    exact .enter hname hrest

theorem leads_file_iff {data data' : List UInt8} :
    Leads (.file data) way (.file data') ↔ way = [] ∧ data = data' := by
  constructor
  · rintro ⟨⟩
    exact ⟨rfl, rfl⟩
  · rintro ⟨rfl, rfl⟩
    exact .here

/-- Two folders with a schema each, and a sample in one of them. -/
theorem sources_below_folders :
    let b := FileTree.folder [("N.jschema", .file []), ("n.txt", .file [])]
    let a := FileTree.folder [("M.json", .file [0x31]), ("N.jschema", .file [0x32])]
    let t := FileTree.folder [("b", b), ("a", a)]
    ∃ sources, below (fun _ => .ok t) ⟨"", []⟩ extensions = .ok sources ∧
      ∃ schemas samples, AllFiles t "jschema" schemas ∧ AllFiles t "json" samples ∧
        sources = schemas.map (sourceAt ⟨"", []⟩ "jschema") ++
          samples.map (sourceAt ⟨"", []⟩ "json") := by
  intro b a t
  have hb : b.Proper := .folder (by decide) (by decide) (by simp [Proper.file])
  have ha : a.Proper := .folder (by decide) (by decide) (by simp [Proper.file])
  have ht : t.Proper := .folder (by decide) (by decide) (by simp [ha, hb])
  have hnames : ∀ e ∈ extensions, ∀ way data, Leads t way (.file data) → HasExtension e way →
      '.' ∈ (dotted (bare e way)).toList := by
    intro e he way data hleads _
    simp only [t, a, b, leads_folder_iff, leads_file_iff, List.mem_cons, List.not_mem_nil, or_false,
      exists_eq_or_imp, exists_eq_left] at hleads
    refine dot_mem_dotted ?_
    rcases hleads with ⟨_, rfl, ⟨_, rfl, -⟩ | ⟨_, rfl, -⟩⟩ | ⟨_, rfl, ⟨_, rfl, -⟩ | ⟨_, rfl, -⟩⟩ <;>
      simp
  obtain ⟨sources, hsources⟩ : ∃ sources, below (fun _ => .ok t) ⟨"", []⟩ extensions = .ok sources :=
    inFolder_total Text.Markup.console ht literal_extensions (by decide) hnames
  obtain ⟨t', schemas, samples, hroot, hschemas, hsamples, hall, -⟩ :=
    @sources_below Text.Markup.console (fun _ => .ok t) _ _ (fun t' ht' => Except.ok.inj ht' ▸ ht)
      hsources
  obtain rfl := Except.ok.inj hroot
  exact ⟨sources, hsources, schemas, samples, hschemas, hsamples, hall⟩

/-- A file in a folder and a file beside the folder can give types of one name. -/
theorem not_names_apart :
    ¬ ∀ (files : Files) (root : Path) (sources : List Source),
      (∀ t, files root = .ok t → t.Proper) → below files root extensions = .ok sources →
      (sources.map fun s => (s.1.name, s.1.kind)).Nodup := by
  intro h
  let a := FileTree.folder [("b.json", .file [])]
  let t := FileTree.folder [("a", a), ("a.b.json", .file [])]
  have ha : a.Proper := .folder (by decide) (by decide) (by simp [Proper.file])
  have ht : t.Proper := .folder (by decide) (by decide) (by simp [ha, Proper.file])
  have hnames : ∀ e ∈ extensions, ∀ way data, Leads t way (.file data) → HasExtension e way →
      '.' ∈ (dotted (bare e way)).toList := by
    intro e he way data hleads hway
    simp only [t, a, leads_folder_iff, leads_file_iff, List.mem_cons, List.not_mem_nil, or_false,
      exists_eq_or_imp, exists_eq_left] at hleads
    rcases hleads with ⟨_, rfl, _, rfl, -⟩ | ⟨_, rfl, rfl, -⟩
    · exact dot_mem_dotted (by simp)
    · simp only [extensions, List.mem_cons, List.not_mem_nil, or_false] at he
      rcases he with rfl | rfl
      · have hsuffix := (@hasExtension_iff _ [] _).mp hway
        exact absurd hsuffix (by decide)
      · decide
  obtain ⟨sources, hsources⟩ :=
    @inFolder_total _ ⟨"", []⟩ Text.Markup.console _ ht literal_extensions (by decide) hnames
  obtain ⟨files, hfiles, hall⟩ := inFolder_ok ht literal_extensions hsources
  have hapart := h (fun _ => .ok t) ⟨"", []⟩ sources (fun t' ht' => Except.ok.inj ht' ▸ ht) hsources
  have hsamples : AllFiles t "json" (files "json") :=
    hfiles _ (List.mem_cons_of_mem _ List.mem_cons_self)
  have hmem : ∀ f ∈ files "json", sourceAt ⟨"", []⟩ "json" f ∈ sources := by
    intro f hf
    rw [hall]
    exact List.mem_flatMap.mpr
      ⟨_, List.mem_cons_of_mem _ List.mem_cons_self, List.mem_map.mpr ⟨f, hf, rfl⟩⟩
  have hinner : (["a", "b.json"], []) ∈ files "json" := by
    refine (hsamples.mem_iff _ _).mpr ⟨?_, ["a"], "b", by decide⟩
    exact .enter List.mem_cons_self (.enter List.mem_cons_self .here)
  have houter : (["a.b.json"], []) ∈ files "json" := by
    refine (hsamples.mem_iff _ _).mpr ⟨?_, [], "a.b", by decide⟩
    exact .enter (List.mem_cons_of_mem _ List.mem_cons_self) .here
  have hsame := List.inj_on_of_nodup_map hapart (hmem _ hinner) (hmem _ houter) (by decide)
  exact absurd (congrArg (fun s => s.1.origin) hsame) (by decide)

end Exemplar.Discovery
