import ContractAudit.FileTree
import ContractAudit.Proofs.Audit.Footprint
import ContractAudit.Proofs.Audit.ReportStructure

/-!
# Three phases ask for one file

Whether the file of a node is there is asked three times: by the node itself, by the edges that
leave it, and by the invariants that have it in their scope. The three go their own ways. Edges and
nodes of the vocabulary read the file, custom nodes and invariants ask whether it is readable, and
each has its own words for what is missing. Where a file is readable exactly if it has a text
(`Sources.ReadableIffText`), as in every file tree, they agree and show the same path
(`phases_agree_on_files`).

Each phase is compared with one condition, `Audit.LacksFile`: that the node has no source to look
into. Half of each comparison is that no other failure is worded like a missing file, and for that
one character of each message is enough.
-/

namespace ContractAudit

/-- A file is readable exactly if it has a text. -/
def Sources.ReadableIffText (s : Sources) : Prop := ∀ p, s.readable p = (s.read p).isOk

/-! ## What the records say -/

@[simp] theorem located_message (r : CheckRecord) (file : String) (line : Option Nat) :
    (r.located file line).message = r.message := rfl

@[simp] theorem edgeRecord_message (e : EdgeRecord) (status : Status) (message : String) :
    (edgeRecord e status message).message = message := rfl

/-- The words of a node's record for a file that is not there. -/
def SaysNoFile (message : String) : Prop :=
  message = "no loc declared" ∨ ∃ shown, message = "file not found: " ++ shown

/-- The records about a node are a single failure, worded as a missing file. -/
def Report.NodeLacksFile (r : Report) (id : String) : Prop :=
  ∃ row, r.recordsOf .nodes id = [row] ∧ row.check = "exists" ∧ row.status = .fail ∧
    SaysNoFile row.message

/-- The record of the edge at a place is a failure, worded as a missing source file. -/
def Report.EdgeLacksFile (r : Report) (place : Nat) : Prop :=
  ∃ row, (r.phaseRecords .edges)[place]? = some row ∧ row.status = .fail ∧
    ∃ what, row.message = "source file not found: " ++ what

/-- The entries that an invariant lists for missing files, each with the id it is made for. -/
def Audit.missingFiles (a : Audit) (i : InvariantRecord) : List (String × String) :=
  i.scope.filterMap fun id => (a.missingFile? id).map fun entry => (id, entry)

/-- The record of the invariant at a place is a failure that lists missing files, and one entry of
the list is made for the id. -/
def Audit.InvariantLacksFile (a : Audit) (place : Nat) (i : InvariantRecord) (id : String) : Prop :=
  ∃ row, (a.report.phaseRecords .invariants)[place]? = some row ∧ row.status = .fail ∧
    row.message = "scoped files not found: " ++
      Text.joinWith ", " ((a.missingFiles i).map Prod.snd) ∧
    ∃ entry, (id, entry) ∈ a.missingFiles i

/-- A node, an edge that leaves it and an invariant that has it in its scope, with all ids of the
edge and of the scope declared. -/
structure Audit.FileUses (a : Audit) (id : String) (n : NodeRecord) (edgePlace : Nat)
    (invariantPlace : Nat) (i : InvariantRecord) : Prop where
  node : a.document.node? id = some n
  edge : ∃ e : EdgeRecord, a.document.edges[edgePlace]? = some e ∧ e.source = id ∧
    a.document.declares e.target = true
  invariant : a.document.invariants[invariantPlace]? = some i
  inScope : id ∈ i.scope
  scopeDeclared : ∀ other ∈ i.scope, a.document.declares other = true

/-- The three phases agree on the file of a node, and on the path they show for it. -/
structure Audit.AgreesOnFile (a : Audit) (id : String) (n : NodeRecord) (edgePlace : Nat)
    (invariantPlace : Nat) (i : InvariantRecord) : Prop where
  nodeAndEdge : a.report.NodeLacksFile id ↔ a.report.EdgeLacksFile edgePlace
  nodeAndInvariant : a.report.NodeLacksFile id ↔ a.InvariantLacksFile invariantPlace i id
  shown : ∀ loc, n.loc = some loc → a.report.NodeLacksFile id → ∃ shown,
    (∃ row, a.report.recordsOf .nodes id = [row] ∧ row.message = "file not found: " ++ shown ∧
      row.file = some shown) ∧
    (∃ row, (a.report.phaseRecords .edges)[edgePlace]? = some row ∧
      row.message = "source file not found: " ++ shown ∧ row.file = some shown) ∧
    (id, shown) ∈ a.missingFiles i

/-! ## Telling messages apart

A message has a beginning of fixed words, and one character of it is enough to tell it from another
message. -/

theorem getElem?_toList_append {p : String} {k : Nat} {c : Char} (h : p.toList[k]? = some c)
    (s : String) : (p ++ s).toList[k]? = some c := by
  obtain ⟨hk, -⟩ := List.getElem?_eq_some_iff.mp h
  rw [String.toList_append, List.getElem?_append_left hk, h]

/-- Most messages quote a name between fixed words. -/
theorem getElem?_toList_quoting {p : String} {k : Nat} {c : Char} (h : p.toList[k]? = some c)
    (name q : String) : (p ++ name ++ q).toList[k]? = some c :=
  getElem?_toList_append (getElem?_toList_append h name) q

theorem append_ne_of_char {m p : String} {c d : Char} (k : Nat) (hm : m.toList[k]? = some c)
    (hp : p.toList[k]? = some d) (hne : c ≠ d) (s : String) : m ≠ p ++ s := by
  rintro rfl
  rw [getElem?_toList_append hp s] at hm
  exact hne (Option.some.inj hm).symm

theorem ne_noLocation_of_head {m : String} {c : Char} (h : m.toList[0]? = some c) (hn : c ≠ 'n') :
    m ≠ "no loc declared" := by
  rintro rfl
  exact hn (Option.some.inj h).symm

theorem not_saysNoFile_of_head {m : String} {c : Char} (h : m.toList[0]? = some c)
    (hc : c ≠ 'n' ∧ c ≠ 'f') : ¬ SaysNoFile m := by
  rintro (hm | ⟨shown, hm⟩)
  · exact ne_noLocation_of_head h hc.1 hm
  · exact append_ne_of_char 0 h rfl hc.2 shown hm

/-! ## Nodes with a file -/

namespace SourceFile

/-- A message on existence begins with what exists, or does not. -/
theorem existence_message (f : SourceFile) (id what : String) (ev : Evidence) :
    ∃ rest, (f.existence id what ev).message = what ++ rest := by
  cases ev with
  | near => exact ⟨_, String.append_assoc ..⟩
  | elsewhere => exact ⟨_, String.append_assoc ..⟩
  | absent => exact ⟨_, String.append_assoc ..⟩

theorem existence_not_saysNoFile (f : SourceFile) (id : String) {what : String} {c : Char}
    (h : what.toList[0]? = some c) (hc : c ≠ 'n' ∧ c ≠ 'f') (ev : Evidence) :
    ¬ SaysNoFile (f.existence id what ev).message := by
  obtain ⟨rest, hm⟩ := f.existence_message id what ev
  rw [hm]
  exact not_saysNoFile_of_head (getElem?_toList_append h rest) hc

theorem endpointExistence_not_saysNoFile (f : SourceFile) (id name : String) :
    ¬ SaysNoFile (f.endpointExistence id name).message := by
  unfold endpointExistence
  dsimp only
  split
  · show ¬ SaysNoFile "endpoint id declares no path"
    exact not_saysNoFile_of_head (c := 'e') rfl (by decide)
  · split
    · exact f.existence_not_saysNoFile id (c := 'r') (getElem?_toList_quoting rfl _ _) (by decide) _
    · -- The words behind the method are quoted as well.
      have hroute : ∀ method path, ("route `" ++ method ++ " " ++ path ++ "`").toList[0]? =
          some 'r' :=
        fun method path => getElem?_toList_quoting (getElem?_toList_quoting rfl method " ") path _
      exact f.existence_not_saysNoFile id (hroute _ _) (by decide) _

/-- A record that comes of a file that was read does not say that there is none. -/
theorem existsRecord_not_saysNoFile (f : SourceFile) (id : String) (kind : NodeKind) :
    ¬ SaysNoFile (f.existsRecord id kind).message := by
  unfold existsRecord
  dsimp only
  split
  · -- This message alone begins like one of a missing file.
    show ¬ SaysNoFile "node id has no identifier after the kind prefix"
    rintro (h | ⟨shown, h⟩)
    · exact absurd h (by decide)
    · exact append_ne_of_char 0 (c := 'n') (d := 'f') rfl rfl (by decide) shown h
  · cases kind with
    | endpoint => exact f.endpointExistence_not_saysNoFile id _
    | type | method | table | event | custom name =>
        exact f.existence_not_saysNoFile id (getElem?_toList_quoting rfl _ _) (by decide) _

/-! ## Edges with a file -/

/-- A verdict fails only through what it says when nothing is found. -/
theorem verdict_fail {f : SourceFile} {ps : List Pattern} {found : String}
    {otherwise : Status × String} (h : (f.verdict ps found otherwise).1 = .fail) :
    otherwise.1 = .fail ∧ (f.verdict ps found otherwise).2 = otherwise.2 := by
  unfold verdict at h ⊢
  split at h
  · cases h
  · rename_i hnone
    rw [if_neg hnone]
    exact ⟨h, rfl⟩

/-- An edge that fails in spite of its file says what was not found in it. -/
theorem edgeVerdict_fail_head {f : SourceFile} {e : EdgeRecord} {schema : Option String}
    (h : (f.edgeVerdict e schema).1 = .fail) :
    ∃ c, c ≠ 's' ∧ (f.edgeVerdict e schema).2.toList[0]? = some c := by
  unfold edgeVerdict at h ⊢
  dsimp only at h ⊢
  cases hrel : e.relation with
  | coChange | custom name =>
      rw [hrel] at h
      cases h
  | validates =>
      rw [hrel] at h
      dsimp only at h ⊢
      unfold validatesVerdict at h ⊢
      cases hname : schema.bind Text.nonBlank? with
      | none =>
          rw [hname] at h
          cases h
      | some name =>
          rw [hname] at h
          exact ⟨'n', by decide, (verdict_fail h).2 ▸ getElem?_toList_quoting rfl name _⟩
  | calls =>
      rw [hrel] at h
      exact ⟨'n', by decide, (verdict_fail h).2 ▸ getElem?_toList_quoting rfl _ _⟩
  | emits =>
      rw [hrel] at h
      exact ⟨'e', by decide, (verdict_fail h).2 ▸ getElem?_toList_quoting rfl _ _⟩
  | writes | reads | listens =>
      rw [hrel] at h
      have hwarn : Status.warn = Status.fail := (verdict_fail h).1
      cases hwarn

end SourceFile

namespace Audit

variable {a : Audit} {id : String} {n : NodeRecord} {file : SourceFile} {fault : SourceFault}

/-! ## Whether there is a file -/

/-- There is no source to look into for the node. -/
def LacksFile (a : Audit) (n : NodeRecord) : Prop := ∃ fault, a.source n = .error fault

theorem not_lacksFile_of_ok (h : a.source n = .ok file) : ¬ a.LacksFile n := by
  rintro ⟨fault, hf⟩
  rw [h] at hf
  cases hf

/-- The path at which the file of a location is shown. -/
def shownAt (a : Audit) (loc : String) : String := a.shown (a.resolve loc).path

theorem source_of_no_loc (h : n.loc = none) : a.source n = .error .noLocation := by
  unfold source
  rw [h]

theorem exists_unreadable {loc : String} (hloc : n.loc = some loc) (h : a.source n = .error fault) :
    ∃ detail, fault = .unreadable ⟨a.shownAt loc, detail⟩ := by
  unfold source sourceAt at h
  rw [hloc] at h
  dsimp only at h
  cases hread : a.sources.read (a.resolve loc).path with
  | error detail =>
      rw [hread] at h
      cases h
      exact ⟨_, rfl⟩
  | ok text =>
      rw [hread] at h
      cases h

/-- Whether the file is readable comes to the same as whether there is a source. -/
theorem isReadable_eq_isOk (hs : a.sources.ReadableIffText) {loc : String}
    (hloc : n.loc = some loc) : a.isReadable loc = (a.source n).isOk := by
  unfold isReadable source sourceAt
  rw [hloc, hs]
  dsimp only
  cases a.sources.read (a.resolve loc).path <;> rfl

/-! ## The node -/

theorem saysNoFile_faultRecord (id : String) (fault : SourceFault) :
    SaysNoFile (faultRecord id fault).message := by
  cases fault with
  | noLocation => exact Or.inl rfl
  | unreadable u => exact Or.inr ⟨u.shown, rfl⟩

section

variable (hs : a.sources.ReadableIffText)
include hs

/-- A custom node without a file has the record of any other. -/
theorem customExistence_of_error (hf : a.source n = .error fault) (id kind : String) :
    a.customExistence id kind n = faultRecord id fault := by
  unfold customExistence
  cases hloc : n.loc with
  | none =>
      rw [source_of_no_loc hloc] at hf
      cases hf
      rfl
  | some loc =>
      have hread : a.isReadable loc = false := by
        rw [isReadable_eq_isOk hs hloc, hf]
        rfl
      obtain ⟨detail, rfl⟩ := exists_unreadable hloc hf
      dsimp only
      rw [hread]
      rfl

theorem customExistence_not_saysNoFile (hf : a.source n = .ok file) (id kind : String) :
    ¬ SaysNoFile (a.customExistence id kind n).message := by
  unfold customExistence
  cases hloc : n.loc with
  | none =>
      rw [source_of_no_loc hloc] at hf
      cases hf
  | some loc =>
      have hread : a.isReadable loc = true := by
        rw [isReadable_eq_isOk hs hloc, hf]
        rfl
      dsimp only
      rw [if_pos hread]
      -- Both messages begin with "file ", and part behind it.
      rintro (hm | ⟨shown, hm⟩)
      · exact ne_noLocation_of_head (c := 'f') (getElem?_toList_quoting rfl kind _) (by decide) hm
      · exact append_ne_of_char 5 (c := 'e') (d := 'n') (getElem?_toList_quoting rfl kind _) rfl
          (by decide) shown hm

/-- A node without a file has one record, the same for every kind. -/
theorem nodeBlock_records_of_fault (hf : a.source n = .error fault) (id : String) :
    (a.nodeBlock id n).records = [faultRecord id fault] := by
  cases hc : (Document.kindOf id (some n)).isCustom with
  | true =>
      obtain ⟨kind, hk⟩ := NodeKind.exists_of_isCustom hc
      rw [nodeBlock_records_of_custom hk, customExistence_of_error hs hf]
  | false => exact nodeBlock_records_of_error hc hf

/-- The first record of a node with a file does not say that there is none. -/
theorem nodeBlock_records_of_source (hf : a.source n = .ok file) (id : String) :
    ∃ row rest, (a.nodeBlock id n).records = row :: rest ∧ ¬ SaysNoFile row.message := by
  cases hc : (Document.kindOf id (some n)).isCustom with
  | true =>
      obtain ⟨kind, hk⟩ := NodeKind.exists_of_isCustom hc
      exact ⟨_, _, nodeBlock_records_of_custom hk, customExistence_not_saysNoFile hs hf id kind⟩
  | false =>
      have hrows := nodeBlock_records_of_ok hc hf
      rw [SourceFile.nodeRecords_eq file id n hc] at hrows
      exact ⟨_, _, hrows, file.existsRecord_not_saysNoFile id (Document.kindOf id (some n))⟩

theorem recordsOf_of_fault (hn : a.document.node? id = some n) (hf : a.source n = .error fault) :
    a.report.recordsOf .nodes id = [faultRecord id fault] := by
  rw [recordsOf_nodes, hn, Option.map_some, Option.getD_some, nodeBlock_records_of_fault hs hf]

/-- **A node reports that its file is missing exactly if it is.** -/
theorem nodeLacksFile_iff (hn : a.document.node? id = some n) :
    a.report.NodeLacksFile id ↔ a.LacksFile n := by
  cases hf : a.source n with
  | error fault =>
      refine iff_of_true ⟨_, recordsOf_of_fault hs hn hf, ?_⟩ ⟨fault, hf⟩
      exact ⟨faultRecord_check id fault, faultRecord_status id fault,
        saysNoFile_faultRecord id fault⟩
  | ok file =>
      refine iff_of_false ?_ (not_lacksFile_of_ok hf)
      rintro ⟨row, hrow, -, -, hsays⟩
      obtain ⟨row', rest, hrows, hnot⟩ := nodeBlock_records_of_source hs hf id
      rw [recordsOf_nodes, hn, Option.map_some, Option.getD_some, hrows] at hrow
      cases hrow
      exact hnot hsays

end

/-! ## The edge -/

section

variable {e : EdgeRecord} {target : NodeRecord} {place : Nat}

theorem edgeFaultRecord_message (e : EdgeRecord) (fault : SourceFault) :
    ∃ what, (edgeFaultRecord e fault).message = "source file not found: " ++ what := by
  cases fault with
  | noLocation => exact ⟨e.source ++ " declares no loc", String.append_assoc ..⟩
  | unreadable u => exact ⟨u.shown, rfl⟩

theorem edge_record_of_fault (he : a.document.edges[place]? = some e)
    (hn : a.document.node? e.source = some n) (ht : a.document.node? e.target = some target)
    (hf : a.source n = .error fault) :
    (a.report.phaseRecords .edges)[place]? = some (edgeFaultRecord e fault) := by
  rw [edge_record, he, Option.bind_some, edgeBlock_records_of_error hn ht hf, List.head?_cons]

/-- **An edge reports that the file of its source is missing exactly if it is.** -/
theorem edgeLacksFile_iff (he : a.document.edges[place]? = some e)
    (hn : a.document.node? e.source = some n) (ht : a.document.node? e.target = some target) :
    a.report.EdgeLacksFile place ↔ a.LacksFile n := by
  cases hf : a.source n with
  | error fault =>
      refine iff_of_true ⟨_, edge_record_of_fault he hn ht hf, ?_⟩ ⟨fault, hf⟩
      exact ⟨edgeFaultRecord_status e fault, edgeFaultRecord_message e fault⟩
  | ok file =>
      refine iff_of_false ?_ (not_lacksFile_of_ok hf)
      rintro ⟨row, hrow, hfail, what, hsays⟩
      rw [edge_record, he, Option.bind_some, edgeBlock_records_of_ok hn ht hf, List.head?_cons]
        at hrow
      obtain rfl := Option.some.inj hrow
      rw [located_status, edgeRecord_status] at hfail
      rw [located_message, edgeRecord_message] at hsays
      obtain ⟨c, hc, hhead⟩ := SourceFile.edgeVerdict_fail_head hfail
      exact append_ne_of_char 0 hhead rfl hc what hsays

end

/-! ## The invariant -/

section

variable {i : InvariantRecord} {place : Nat}

theorem mem_missingFiles {entry : String} :
    (id, entry) ∈ a.missingFiles i ↔ id ∈ i.scope ∧ a.missingFile? id = some entry := by
  unfold missingFiles
  simp only [List.mem_filterMap, Option.map_eq_some_iff, Prod.mk.injEq]
  constructor
  · rintro ⟨other, hother, entry', hentry, rfl, rfl⟩
    exact ⟨hother, hentry⟩
  · rintro ⟨hid, hentry⟩
    exact ⟨id, hid, entry, hentry, rfl, rfl⟩

theorem map_snd_missingFiles (a : Audit) (i : InvariantRecord) :
    (a.missingFiles i).map Prod.snd = i.scope.filterMap a.missingFile? := by
  unfold missingFiles
  rw [List.map_filterMap]
  apply List.filterMap_congr
  intro id _
  rw [Option.map_map]
  exact Option.map_id' ..

/-- With all of its scope declared, an invariant lists every file that is missing. -/
theorem invariantVerdict_of_missing (hid : id ∈ i.scope)
    (hscope : ∀ other ∈ i.scope, a.document.declares other = true) {entry : String}
    (hentry : a.missingFile? id = some entry) :
    a.invariantVerdict i = (.fail, "scoped files not found: " ++
      Text.joinWith ", " ((a.missingFiles i).map Prod.snd)) := by
  have hnonempty : i.scope.isEmpty = false := by
    rw [List.isEmpty_eq_false_iff]
    exact List.ne_nil_of_mem hid
  have hdeclared : i.scope.filter (!a.document.declares ·) = [] := by
    rw [List.filter_eq_nil_iff]
    intro other hother
    rw [hscope other hother]
    decide
  have hmem : entry ∈ i.scope.filterMap a.missingFile? := List.mem_filterMap.mpr ⟨id, hid, hentry⟩
  unfold invariantVerdict
  rw [hnonempty, hdeclared, map_snd_missingFiles]
  cases hmissing : i.scope.filterMap a.missingFile? with
  | nil =>
      rw [hmissing] at hmem
      cases hmem
  | cons first rest => rfl

variable (hs : a.sources.ReadableIffText) (hn : a.document.node? id = some n)
include hs hn

theorem missingFile?_of_ok (hf : a.source n = .ok file) : a.missingFile? id = none := by
  unfold missingFile?
  rw [hn, Option.bind_some]
  cases hloc : n.loc with
  | none =>
      rw [source_of_no_loc hloc] at hf
      cases hf
  | some loc =>
      have hread : a.isReadable loc = true := by
        rw [isReadable_eq_isOk hs hloc, hf]
        rfl
      dsimp only
      rw [if_pos hread]

/-- The entry of a node that has a location is the path of its file. -/
theorem missingFile?_of_error (hf : a.source n = .error fault) :
    ∃ entry, a.missingFile? id = some entry ∧ ∀ loc, n.loc = some loc → entry = a.shownAt loc := by
  unfold missingFile?
  rw [hn, Option.bind_some]
  cases hloc : n.loc with
  | none =>
      refine ⟨_, rfl, ?_⟩
      rintro loc ⟨⟩
  | some loc =>
      have hread : a.isReadable loc = false := by
        rw [isReadable_eq_isOk hs hloc, hf]
        rfl
      refine ⟨a.shownAt loc, ?_, ?_⟩
      · dsimp only
        rw [hread]
        rfl
      · rintro loc' ⟨⟩
        rfl

/-- **An invariant lists the file of a node in its scope exactly if it is missing.** -/
theorem invariantLacksFile_iff (hi : a.document.invariants[place]? = some i) (hid : id ∈ i.scope)
    (hscope : ∀ other ∈ i.scope, a.document.declares other = true) :
    a.InvariantLacksFile place i id ↔ a.LacksFile n := by
  cases hf : a.source n with
  | error fault =>
      obtain ⟨entry, hentry, -⟩ := missingFile?_of_error hs hn hf
      have hverdict := invariantVerdict_of_missing hid hscope hentry
      have hrow : (a.report.phaseRecords .invariants)[place]? =
          some (invariantRecord i (a.invariantVerdict i).1 (a.invariantVerdict i).2) := by
        rw [invariant_record, hi]
        rfl
      rw [hverdict] at hrow
      exact iff_of_true ⟨_, hrow, rfl, rfl, entry, mem_missingFiles.mpr ⟨hid, hentry⟩⟩ ⟨fault, hf⟩
  | ok file =>
      refine iff_of_false ?_ (not_lacksFile_of_ok hf)
      rintro ⟨row, -, -, -, entry, hentry⟩
      rw [mem_missingFiles, missingFile?_of_ok hs hn hf] at hentry
      cases hentry.2

end

/-! ## Agreement -/

theorem agreesOnFile_of_uses (hs : a.sources.ReadableIffText) {edgePlace invariantPlace : Nat}
    {i : InvariantRecord} (h : a.FileUses id n edgePlace invariantPlace i) :
    a.AgreesOnFile id n edgePlace invariantPlace i := by
  obtain ⟨hn, ⟨e, he, rfl, htarget⟩, hi, hid, hscope⟩ := h
  rw [declares_eq, Option.isSome_iff_exists] at htarget
  obtain ⟨target, ht⟩ := htarget
  have hnode := nodeLacksFile_iff hs hn
  constructor
  · rw [hnode, edgeLacksFile_iff he hn ht]
  · rw [hnode, invariantLacksFile_iff hs hn hi hid hscope]
  · intro loc hloc hlacks
    obtain ⟨fault, hf⟩ := hnode.mp hlacks
    obtain ⟨entry, hentry, hshown⟩ := missingFile?_of_error hs hn hf
    obtain ⟨detail, rfl⟩ := exists_unreadable hloc hf
    obtain rfl := hshown loc hloc
    exact ⟨a.shownAt loc, ⟨_, recordsOf_of_fault hs hn hf, rfl, rfl⟩,
      ⟨_, edge_record_of_fault he hn ht hf, rfl, rfl⟩, mem_missingFiles.mpr ⟨hid, hentry⟩⟩

end Audit

/-- **The phases agree on files.** In a file tree a file is readable exactly if it has a text.
Wherever that holds, a node, an edge out of it and an invariant over it report its file as missing
together or not at all, and they show it at one path. -/
theorem phases_agree_on_files :
    (∀ fs : FileSystem, fs.sources.ReadableIffText) ∧
    ∀ a : Audit, a.sources.ReadableIffText →
      ∀ id n edgePlace invariantPlace i, a.FileUses id n edgePlace invariantPlace i →
        a.AgreesOnFile id n edgePlace invariantPlace i :=
  ⟨FileSystem.readable_sources_iff, fun _ hs _ _ _ _ _ => Audit.agreesOnFile_of_uses hs⟩

/-! ## A directory for a file -/

/-- A project in which `assets` is a directory, although a custom node names it as its file. -/
def logoInDirectory : Audit where
  sources := FileSystem.sources
    { tree := .directory [("repo", .directory [("assets", .directory [])])]
      workingDirectory := ⟨"/"⟩ }
  document :=
    { nodes := .ofList [("asset:logo", { loc := some "assets:2" })]
      edges := [{ source := "asset:logo", target := "asset:logo", rel := "co_change" }]
      invariants := [{ id := "INV-1", scope := ["asset:logo"] }] }
  root := ⟨"/repo"⟩

/-- A directory is no file for any of the three. -/
theorem directory_is_no_file :
    let a := logoInDirectory
    let n : NodeRecord := { loc := some "assets:2" }
    let i : InvariantRecord := { id := "INV-1", scope := ["asset:logo"] }
    a.sources.ReadableIffText ∧ a.FileUses "asset:logo" n 0 0 i ∧
      a.AgreesOnFile "asset:logo" n 0 0 i ∧
      a.report.records.map CheckRecord.message = ["file not found: assets",
        "source file not found: assets", "scoped files not found: assets"] := by
  intro a n i
  have hsources : a.sources.ReadableIffText := phases_agree_on_files.1 _
  have huses : a.FileUses "asset:logo" n 0 0 i :=
    { node := by decide
      edge := ⟨_, rfl, rfl, by decide⟩
      invariant := by decide
      inScope := by decide
      scopeDeclared := by decide }
  exact ⟨hsources, huses, phases_agree_on_files.2 a hsources _ n 0 0 i huses, by decide +kernel⟩

end ContractAudit
