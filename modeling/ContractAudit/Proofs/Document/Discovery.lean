import ContractAudit.Discovery
import ContractAudit.Proofs.Location.Components
import ContractAudit.Registry
import Mathlib.Data.List.Sort

/-!
# Maps in a directory

A name is one of a map if it is `contractmap` with one of three extensions, or ends so behind a dot
with something before it (`IsMapName`). What discovery answers depends on the regular files with
such names alone: there is one ascending list of them (`ListsMaps.unique`), and its length decides
between the three answers (`discovery_depends_on_maps`). So neither the order of the entries, nor
directories, nor files with other names are of any matter.

A directory is taken as a list of names, each with whether it is a regular file
(`FileSystem.Shows`). What a file tree holds in a directory is such a list
(`FileSystem.shows_of_find`), and every such list is what some file tree holds
(`FileSystem.shows_holding`).
-/

namespace ContractAudit

/-! ## Names -/

/-- The name is the base name with one of the extensions, or something and a dot before that. -/
def IsMapName (name : String) : Prop :=
  ∃ extension ∈ ["yaml", "yml", "json"],
    name = "contractmap." ++ extension ∨
      ∃ front, front ≠ "" ∧ name = front ++ ".contractmap." ++ extension

theorem isDocumentStem_iff {stem : List Char} : isDocumentStem stem = true ↔
    stem = documentBase.toList ∨
      ∃ front, front ≠ [] ∧ stem = front ++ '.' :: documentBase.toList := by
  unfold isDocumentStem
  simp only [Bool.or_eq_true, beq_iff_eq, Bool.and_eq_true, List.isSuffixOf_iff_suffix, bne_iff_ne]
  refine or_congr_right ⟨?_, ?_⟩
  · rintro ⟨⟨before, rfl⟩, hdot, hne⟩
    rw [List.length_append, Nat.add_sub_cancel, List.take_left] at hdot hne
    obtain ⟨front, rfl⟩ := List.getLast?_eq_some_iff.mp hdot
    refine ⟨front, ?_, List.append_assoc _ _ _⟩
    -- With nothing before the dot the name would be that of a hidden file.
    rintro rfl
    exact hne rfl
  · rintro ⟨front, hne, rfl⟩
    have hstem : front ++ '.' :: documentBase.toList = (front ++ ['.']) ++ documentBase.toList :=
      List.append_cons _ _ _
    rw [hstem, List.length_append, Nat.add_sub_cancel, List.take_left]
    exact ⟨List.suffix_append _ _, List.getLast?_concat, by simpa using hne⟩

/-- No extension holds a dot, so the last dot of a name stands before it. -/
theorem isDocumentFileName_iff_stem {name : String} : isDocumentFileName name = true ↔
    ∃ extension ∈ documentExtensions, ∃ stem, isDocumentStem stem = true ∧
      name.toList = stem ++ '.' :: extension.toList := by
  have hdot : ∀ extension ∈ documentExtensions, extension.toList.all (· != '.') = true := by
    decide
  unfold isDocumentFileName
  constructor
  · intro h
    split at h
    · rename_i stem extension hcut
      obtain ⟨c, hc, -, hname⟩ := Text.cutLast_eq_some hcut
      obtain rfl := beq_iff_eq.mp hc
      rw [Bool.and_eq_true, List.contains_iff_mem] at h
      exact ⟨_, h.1, stem, h.2, by rw [hname, String.toList_ofList]⟩
    · cases h
  · rintro ⟨extension, hextension, stem, hstem, hname⟩
    have hafter : ∀ c ∈ extension.toList, (c == '.') = false := by
      simpa using List.all_eq_true.mp (hdot extension hextension)
    rw [hname, Text.cutLast_append rfl hafter]
    dsimp only
    rw [String.ofList_toList, hstem, Bool.and_true, List.contains_iff_mem]
    exact hextension

/-- **Discovery accepts exactly the names of maps.** -/
theorem isDocumentFileName_iff {name : String} :
    isDocumentFileName name = true ↔ IsMapName name := by
  rw [isDocumentFileName_iff_stem]
  refine exists_congr fun extension => and_congr_right fun _ => ?_
  simp only [isDocumentStem_iff]
  constructor
  · rintro ⟨stem, rfl | ⟨front, hne, rfl⟩, hname⟩
    · exact .inl (String.toList_inj.mp (by simp [hname, documentBase]))
    · refine .inr ⟨String.ofList front, by simpa using hne, String.toList_inj.mp ?_⟩
      simp [hname, documentBase]
  · rintro (rfl | ⟨front, hne, rfl⟩)
    · exact ⟨documentBase.toList, .inl rfl, by simp [documentBase]⟩
    · refine ⟨front.toList ++ '.' :: documentBase.toList, .inr ⟨_, ?_, rfl⟩, by simp [documentBase]⟩
      simpa using hne

instance : DecidablePred IsMapName := fun _ => decidable_of_iff _ isDocumentFileName_iff

/-! ## Directories -/

/-- The entries are those of the directory, each name once and with whether it is a regular file. -/
structure FileSystem.Shows (fs : FileSystem) (dir : FilePath) (entries : List (String × Bool)) :
    Prop where
  listed : fs.list dir = .ok (entries.map Prod.fst)
  kinds : ∀ entry ∈ entries, fs.isFile (dir.join ⟨entry.1⟩) = entry.2
  distinct : (entries.map Prod.fst).Nodup

/-- A regular file with the name of a map is among the entries. -/
def HoldsMap (entries : List (String × Bool)) (name : String) : Prop :=
  (name, true) ∈ entries ∧ IsMapName name

/-- The names are those of the maps among the entries, in ascending order. -/
structure ListsMaps (entries : List (String × Bool)) (names : List String) : Prop where
  mem : ∀ name, name ∈ names ↔ HoldsMap entries name
  ascending : names.Pairwise (· < ·)

theorem listsMaps_iff {entries : List (String × Bool)} {names : List String} :
    ListsMaps entries names ↔
      (∀ name ∈ names, (name, true) ∈ entries ∧ IsMapName name) ∧
      (∀ entry ∈ entries, entry.2 = true → IsMapName entry.1 → entry.1 ∈ names) ∧
      names.Pairwise (· < ·) := by
  constructor
  · intro h
    refine ⟨fun name hname => (h.mem name).mp hname, ?_, h.ascending⟩
    rintro ⟨name, kind⟩ hentry rfl hname
    exact (h.mem name).mpr ⟨hentry, hname⟩
  · rintro ⟨hnames, hentries, hascending⟩
    exact ⟨fun name => ⟨hnames name, fun h => hentries _ h.1 rfl h.2⟩, hascending⟩

instance (entries : List (String × Bool)) (names : List String) :
    Decidable (ListsMaps entries names) := decidable_of_iff _ listsMaps_iff.symm

/-- There is one such list, whatever else is among the entries. -/
theorem ListsMaps.unique {entries entries' : List (String × Bool)} {names names' : List String}
    (h : ListsMaps entries names) (h' : ListsMaps entries' names')
    (hsame : ∀ name, HoldsMap entries' name ↔ HoldsMap entries name) : names' = names :=
  h'.ascending.eq_of_mem_iff h.ascending fun name =>
    (h'.mem name).trans ((hsame name).trans (h.mem name).symm)

/-- Sorting distinct names puts them in strictly ascending order. -/
theorem pairwise_lt_mergeSort {names : List String} (h : names.Nodup) :
    (names.mergeSort fun a b => decide (a ≤ b)).Pairwise (· < ·) := by
  have hsorted : (names.mergeSort fun a b => decide (a ≤ b)).Pairwise
      fun a b => decide (a ≤ b) = true := by
    refine List.pairwise_mergeSort (fun a b c hab hbc => ?_) (fun a b => ?_) names
    · exact decide_eq_true (String.le_trans (of_decide_eq_true hab) (of_decide_eq_true hbc))
    · simpa using String.le_total a b
  have hdistinct := (List.mergeSort_perm names fun a b => decide (a ≤ b)).nodup_iff.mpr h
  refine hsorted.imp₂ (fun a b hle hne => ?_) hdistinct
  apply String.not_le.mp
  intro hge
  exact hne (String.le_antisymm (of_decide_eq_true hle) hge)

namespace FileSystem

variable {fs : FileSystem} {dir : FilePath} {entries : List (String × Bool)}

/-- The maps of a directory are found in ascending order. -/
theorem Shows.documentsIn (h : fs.Shows dir entries) : ∃ names, ListsMaps entries names ∧
    fs.documentsIn dir = .ok (names.map fun name => dir.join ⟨name⟩) := by
  refine ⟨((entries.map Prod.fst).filter fun name =>
      isDocumentFileName name && fs.isFile (dir.join ⟨name⟩)).mergeSort fun a b => decide (a ≤ b),
    ⟨fun name => ?mem, pairwise_lt_mergeSort (h.distinct.filter _)⟩, ?found⟩
  case mem =>
    rw [List.mem_mergeSort, List.mem_filter, Bool.and_eq_true, isDocumentFileName_iff]
    constructor
    · rintro ⟨hmem, hname, hfile⟩
      obtain ⟨⟨_, kind⟩, hentry, rfl⟩ := List.mem_map.mp hmem
      have hkind : _ = kind := h.kinds _ hentry
      rw [hfile] at hkind
      exact ⟨hkind ▸ hentry, hname⟩
    · rintro ⟨hentry, hname⟩
      have hmem : name ∈ entries.map Prod.fst := List.mem_map.mpr ⟨(name, true), hentry, rfl⟩
      exact ⟨hmem, hname, h.kinds (name, true) hentry⟩
  case found =>
    unfold FileSystem.documentsIn
    rw [h.listed]
    rfl

end FileSystem

/-! ## Answers -/

/-- What discovery answers in a directory with these entries. -/
structure IsAnswer (dir : FilePath) (entries : List (String × Bool))
    (answer : Except LoadError FilePath) : Prop where
  notFound : answer = .error (.notFound dir) ↔ ∀ name, ¬ HoldsMap entries name
  found : ∀ path, answer = .ok path ↔
    ∃ name, path = dir.join ⟨name⟩ ∧ ∀ other, HoldsMap entries other ↔ other = name
  ambiguous : ∀ candidates, answer = .error (.ambiguous dir candidates) ↔
    ∃ names, candidates = names.map (fun name => dir.join ⟨name⟩) ∧ 2 ≤ names.length ∧
      ListsMaps entries names
  total : answer = .error (.notFound dir) ∨ (∃ path, answer = .ok path) ∨
    ∃ candidates, answer = .error (.ambiguous dir candidates)

/-- The number of maps decides. -/
theorem ListsMaps.isAnswer {entries : List (String × Bool)} {names : List String}
    (h : ListsMaps entries names) (dir : FilePath) :
    IsAnswer dir entries (chooseDocument dir (names.map fun name => dir.join ⟨name⟩)) where
  notFound := by
    rw [chooseDocument_eq_notFound_iff, List.map_eq_nil_iff, List.eq_nil_iff_forall_not_mem]
    simp only [h.mem]
  found := by
    intro path
    rw [chooseDocument_eq_ok_iff, List.map_eq_singleton_iff]
    constructor
    · rintro ⟨name, rfl, rfl⟩
      exact ⟨name, rfl, fun other => (h.mem other).symm.trans List.mem_singleton⟩
    · -- There is no other list for one map than that of its name.
      rintro ⟨name, rfl, honly⟩
      have hone : ListsMaps entries [name] :=
        ⟨fun other => List.mem_singleton.trans (honly other).symm, List.pairwise_singleton _ _⟩
      exact ⟨name, hone.unique h fun _ => Iff.rfl, rfl⟩
  ambiguous := by
    intro candidates
    rw [chooseDocument_eq_ambiguous_iff, List.length_map]
    constructor
    · rintro ⟨rfl, hmany⟩
      exact ⟨names, rfl, hmany, h⟩
    · rintro ⟨names', rfl, hmany, h'⟩
      obtain rfl := h.unique h' fun _ => Iff.rfl
      exact ⟨rfl, hmany⟩
  total := by
    rcases names with _ | ⟨first, _ | ⟨second, rest⟩⟩ <;> simp [chooseDocument]

namespace FileSystem

variable {fs fs' : FileSystem} {dir : FilePath} {entries entries' : List (String × Bool)}

theorem Shows.discover (h : fs.Shows dir entries) : ∃ names, ListsMaps entries names ∧
    fs.discover dir = chooseDocument dir (names.map fun name => dir.join ⟨name⟩) := by
  obtain ⟨names, hnames, hdocuments⟩ := h.documentsIn
  refine ⟨names, hnames, ?_⟩
  unfold FileSystem.discover
  rw [hdocuments]

/-- The maps among the entries decide. -/
theorem Shows.discover_congr (h : fs.Shows dir entries) (h' : fs'.Shows dir entries')
    (hsame : ∀ name, HoldsMap entries' name ↔ HoldsMap entries name) :
    fs'.discover dir = fs.discover dir := by
  obtain ⟨names, hnames, hdiscover⟩ := h.discover
  obtain ⟨names', hnames', hdiscover'⟩ := h'.discover
  obtain rfl := hnames.unique hnames' hsame
  rw [hdiscover, hdiscover']

end FileSystem

/-! ## Directories of trees -/

/-- The name may stand in a directory. -/
@[mk_iff] structure IsEntryName (name : String) : Prop where
  nonempty : name ≠ ""
  notCurrent : name ≠ "."
  notParent : name ≠ ".."
  noSlash : '/' ∉ name.toList
  noNul : '\x00' ∉ name.toList
  short : name.utf8ByteSize ≤ FileTree.maxNameBytes

instance : DecidablePred IsEntryName := fun name => decidable_of_iff _ (isEntryName_iff name).symm

def FileTree.isFile : FileTree → Bool
  | .file _ => true
  | .directory _ => false

section

variable {contents : List (String × FileTree)} {name : String} {child : FileTree}

theorem FileTree.Place.step_entry (hname : IsEntryName name)
    (hdistinct : (contents.map Prod.fst).Nodup) (hmem : (name, child) ∈ contents)
    (above : List FileTree) : FileTree.Place.step ⟨.directory contents, above⟩ name =
      .ok ⟨child, .directory contents :: above⟩ := by
  have hlookup : contents.lookup name = some child :=
    (Registry.get?_eq_some_iff (r := ⟨contents, hdistinct⟩)).mpr hmem
  unfold step
  dsimp only
  rw [if_neg (not_or.mpr ⟨hname.nonempty, hname.notCurrent⟩), if_neg hname.notParent,
    if_neg (Nat.not_lt.mpr hname.short), hlookup]

variable {fs : FileSystem} {dir : FilePath}

/-- An entry stands where its name behind the directory's path leads. -/
theorem FileSystem.find_entry (hdir : fs.find dir = .ok (.directory contents))
    (hdistinct : (contents.map Prod.fst).Nodup) (hname : IsEntryName name)
    (hmem : (name, child) ∈ contents)
    (hshort : (dir.join ⟨name⟩).text.utf8ByteSize ≤ FileTree.maxPathBytes) :
    fs.find (dir.join ⟨name⟩) = .ok child := by
  obtain ⟨hnul, hne, -, place, hwalk, hplace⟩ := find_eq_ok_iff.mp hdir
  have hrelative := FilePath.isAbsolute_of_notMem hname.noSlash
  have htext := FilePath.text_join hrelative dir
  refine find_eq_ok_iff.mpr ⟨?_, ?_, hshort, ⟨child, place.here :: place.above⟩, ?_, rfl⟩
  · rw [htext, String.toList_append, String.toList_append, List.mem_append, List.mem_append]
    rintro ((h | h) | h)
    · exact hnul h
    · split at h <;> simp at h
    · exact hname.noNul h
  · exact FilePath.text_join_ne_empty hname.nonempty dir
  · have hwalk' := foldlM_step_join (FilePath.text_join_ne_empty hne _) hname.noSlash hwalk
    rw [FilePath.join_join hne hrelative, hwalk']
    obtain ⟨here, above⟩ := place
    subst hplace
    exact FileTree.Place.step_entry hname hdistinct hmem above

/-- What a tree holds in a directory is what a file system shows there. -/
theorem FileSystem.shows_of_find (hdir : fs.find dir = .ok (.directory contents))
    (hdistinct : (contents.map Prod.fst).Nodup) (hnames : ∀ entry ∈ contents, IsEntryName entry.1)
    (hshort : ∀ entry ∈ contents,
      (dir.join ⟨entry.1⟩).text.utf8ByteSize ≤ FileTree.maxPathBytes) :
    fs.Shows dir (contents.map fun entry => (entry.1, entry.2.isFile)) where
  listed := by
    unfold list
    rw [hdir]
    simp [bind, Except.bind, pure, Except.pure, Function.comp_def]
  kinds := by
    refine List.forall_mem_map.mpr fun entry hentry => ?_
    unfold isFile
    rw [find_entry hdir hdistinct (hnames entry hentry) hentry (hshort entry hentry)]
    cases entry.2 <;> rfl
  distinct := by
    simpa [Function.comp_def] using hdistinct

/-- A file system with these entries at its root, the files and directories empty. -/
def FileSystem.holding (entries : List (String × Bool)) : FileSystem where
  tree := .directory (entries.map fun entry =>
    (entry.1, if entry.2 then .file [] else .directory []))
  workingDirectory := ⟨"/"⟩

/-- Any entries may be those of a directory. -/
theorem FileSystem.shows_holding {entries : List (String × Bool)}
    (hdistinct : (entries.map Prod.fst).Nodup) (hnames : ∀ entry ∈ entries, IsEntryName entry.1) :
    (holding entries).Shows ⟨"."⟩ entries := by
  have hwalk : FileSystem.pieces ((⟨"/"⟩ : FilePath).join ⟨"."⟩) = ["", "."] := by decide +kernel
  have hdir : (holding entries).find ⟨"."⟩ = .ok (holding entries).tree := by
    refine find_eq_ok_iff.mpr
      ⟨by decide, by decide, by decide, ⟨(holding entries).tree, []⟩, ?_, rfl⟩
    show (FileSystem.pieces ((⟨"/"⟩ : FilePath).join ⟨"."⟩)).foldlM FileTree.Place.step _ = _
    rw [hwalk]
    rfl
  have hshows := shows_of_find hdir ?distinct ?names ?short
  case distinct => simpa [Function.comp_def] using hdistinct
  case names => exact List.forall_mem_map.mpr hnames
  case short =>
    refine List.forall_mem_map.mpr fun entry hentry => ?_
    have hname := hnames entry hentry
    have htext : ((⟨"."⟩ : FilePath).join ⟨entry.1⟩).text = "./" ++ entry.1 := by
      rw [FilePath.text_join (FilePath.isAbsolute_of_notMem hname.noSlash)]
      exact congrArg (· ++ entry.1) (by decide)
    have hlength : entry.1.utf8ByteSize ≤ 255 := hname.short
    have hdot : "./".utf8ByteSize = 2 := by decide
    rw [htext, String.utf8ByteSize_append, hdot]
    show _ ≤ 4095
    omega
  have hkind : ((fun entry : String × FileTree => (entry.1, entry.2.isFile)) ∘
      fun entry : String × Bool => (entry.1, if entry.2 then .file [] else .directory [])) =
        id := by
    funext ⟨name, kind⟩
    cases kind <;> rfl
  rwa [List.map_map, hkind, List.map_id] at hshows

end

/-! ## Discovery -/

/-- **Discovery depends on the maps in a directory alone.** It accepts exactly the names of maps.
In a directory with any entries it answers by the number of regular files with such names, and two
directories answer alike if one's entries are the other's in another order, or if they differ in
directories and other names only. -/
theorem discovery_depends_on_maps :
    (∀ name, isDocumentFileName name = true ↔ IsMapName name) ∧
    (∀ (fs : FileSystem) (dir : FilePath) (entries : List (String × Bool)), fs.Shows dir entries →
      IsAnswer dir entries (fs.discover dir)) ∧
    (∀ (fs fs' : FileSystem) (dir : FilePath) (entries entries' : List (String × Bool)),
      fs.Shows dir entries → fs'.Shows dir entries' →
        (entries'.Perm entries → fs'.discover dir = fs.discover dir) ∧
        ((∀ name, HoldsMap entries' name ↔ HoldsMap entries name) →
          fs'.discover dir = fs.discover dir)) ∧
    ∀ entries : List (String × Bool), (entries.map Prod.fst).Nodup →
      (∀ entry ∈ entries, IsEntryName entry.1) →
        (FileSystem.holding entries).Shows ⟨"."⟩ entries := by
  refine ⟨fun name => isDocumentFileName_iff, ?_, ?_, fun _ => FileSystem.shows_holding⟩
  · intro fs dir entries h
    obtain ⟨names, hnames, hdiscover⟩ := h.discover
    rw [hdiscover]
    exact hnames.isAnswer dir
  · intro fs fs' dir entries entries' h h'
    exact ⟨fun hperm => h.discover_congr h' fun name => and_congr_left' hperm.mem_iff,
      h.discover_congr h'⟩

/-- Two maps among directories and other names. -/
def crowdedEntries : List (String × Bool) :=
  [("notes.md", true), ("contractmap.yaml", false), ("b.contractmap.yml", true),
    (".contractmap.yaml", true), ("mycontractmap.json", true), ("x.yaml.json", true),
    ("a.contractmap.json", true)]

theorem crowdedEntries_are_ambiguous :
    (FileSystem.holding crowdedEntries).discover ⟨"."⟩ =
      .error (.ambiguous ⟨"."⟩ [⟨"./a.contractmap.json"⟩, ⟨"./b.contractmap.yml"⟩]) ∧
    (FileSystem.holding crowdedEntries.reverse).discover ⟨"."⟩ =
      (FileSystem.holding crowdedEntries).discover ⟨"."⟩ ∧
    (FileSystem.holding (crowdedEntries.take 6)).discover ⟨"."⟩ =
      (FileSystem.holding [("b.contractmap.yml", true)]).discover ⟨"."⟩ ∧
    (FileSystem.holding [("b.contractmap.yml", true)]).discover ⟨"."⟩ =
      .ok ⟨"./b.contractmap.yml"⟩ := by
  obtain ⟨-, hanswer, hsame, hholding⟩ := discovery_depends_on_maps
  have hcrowded := hholding crowdedEntries (by decide +kernel) (by decide +kernel)
  have hreversed := hholding crowdedEntries.reverse (by decide +kernel) (by decide +kernel)
  have hfront := hholding (crowdedEntries.take 6) (by decide +kernel) (by decide +kernel)
  have hone := hholding [("b.contractmap.yml", true)] (by decide +kernel) (by decide +kernel)
  have hlone : ListsMaps [("b.contractmap.yml", true)] ["b.contractmap.yml"] := by decide +kernel
  have hlist : ListsMaps (crowdedEntries.take 6) ["b.contractmap.yml"] := by decide +kernel
  refine ⟨?_, ?_, ?_, ?_⟩
  · exact ((hanswer _ _ _ hcrowded).ambiguous _).mpr
      ⟨["a.contractmap.json", "b.contractmap.yml"], by decide +kernel⟩
  · exact (hsame _ _ _ _ _ hcrowded hreversed).1 (List.reverse_perm _)
  · exact (hsame _ _ _ _ _ hone hfront).2 fun name => (hlist.mem name).symm.trans (hlone.mem name)
  · refine ((hanswer _ _ _ hone).found _).mpr
      ⟨"b.contractmap.yml", by decide +kernel, fun name => ?_⟩
    rw [← hlone.mem, List.mem_singleton]

end ContractAudit
