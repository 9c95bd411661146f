import ContractAudit.Proofs.Audit.FilePresence
import ContractAudit.Proofs.Audit.Existence
import ContractAudit.Proofs.Decimal.Integers
import Mathlib.Data.List.Infix

/-!
# Checks beyond existence

Types declare values and a schema, tables declare foreign keys. These are checked once the source of
the node has been read and its id has a name, whether the node was found in it or not: a value that
is missing fails each time it is declared, a schema passes or fails, and a foreign key never fails
(`Audit.ChecksNode`). So a warning about a node is about a foreign key, or about a declared line
that what was found is not near (`further_checks`).
-/

namespace ContractAudit

/-! ## The records of one check -/

/-- The records of the values that a type declares, in the order in which they are declared. -/
structure ChecksValues (text : String) (values : List String) (rs : List CheckRecord) : Prop where
  nothing : values = [] → rs = []
  allThere : values ≠ [] → (∀ v ∈ values, v.toList <:+: text.toList) →
    ∃ r, rs = [r] ∧ r.check = "values" ∧ r.status = .pass ∧
      r.message = "all " ++ toString values.length ++ " declared values present"
  missing : (∃ v ∈ values, ¬ v.toList <:+: text.toList) →
    List.Forall₂ (fun v r => r.check = "values" ∧ r.status = .fail ∧
        r.message = "declared value `" ++ v ++ "` not found")
      (values.filter fun v => ¬ v.toList <:+: text.toList) rs

/-- The record of the schema that a type declares. A blank schema is none. -/
structure ChecksSchema (schema : Option String) (rs : List CheckRecord) : Prop where
  nothing : (∀ s, schema = some s → Text.trim s = "") → rs = []
  one : ∀ s, schema = some s → Text.trim s ≠ "" → ∃ r, rs = [r] ∧ r.check = "schema" ∧
    (r.status = .pass ∧ r.message = "schema `" ++ Text.trim s ++ "` present" ∨
      r.status = .fail ∧ r.message = "schema `" ++ Text.trim s ++ "` not found")

/-- The record of a foreign key: it passes or warns. -/
structure ChecksForeignKey (entry : String) (r : CheckRecord) : Prop where
  check : r.check = "fk"
  noTable : ForeignKey.target entry = "" →
    r.status = .warn ∧ r.message = "fk entry `" ++ entry ++ "` names no table"
  table : ForeignKey.target entry ≠ "" →
    r.status = .pass ∧ r.message = "fk target `" ++ ForeignKey.target entry ++ "` referenced" ∨
      r.status = .warn ∧ ∃ shown, r.message =
        "fk target `" ++ ForeignKey.target entry ++ "` not referenced in " ++ shown

namespace SourceFile

theorem contains_iff (f : SourceFile) (v : String) :
    Text.contains f.text v = true ↔ v.toList <:+: f.text.toList := Text.occursIn_iff

theorem valueRecords_of_missing (f : SourceFile) (id : String) {values : List String}
    (h : (values.filter fun v => !Text.contains f.text v) ≠ []) : f.valueRecords id values =
      (values.filter fun v => !Text.contains f.text v).map fun v =>
        (nodeRecord id "values" .fail ("declared value `" ++ v ++ "` not found")).located
          f.display none := by
  unfold valueRecords
  split
  · exact absurd rfl h
  · contradiction
  · rfl

theorem checksValues_valueRecords (f : SourceFile) (id : String) (values : List String) :
    ChecksValues f.text values (f.valueRecords id values) := by
  have hfilter : (values.filter fun v => !Text.contains f.text v) =
      values.filter fun v => ¬ v.toList <:+: f.text.toList := by
    apply List.filter_congr
    intro v _
    rw [Bool.eq_iff_iff, Bool.not_eq_true', decide_eq_true_iff, ← f.contains_iff,
      Bool.not_eq_true]
  constructor
  case nothing =>
    rintro rfl
    rfl
  case allThere =>
    intro hvalues hall
    have hnone : (values.filter fun v => !Text.contains f.text v) = [] := by
      rw [hfilter, List.filter_eq_nil_iff]
      intro v hv
      simp [hall v hv]
    unfold valueRecords
    rw [hnone]
    cases values with
    | nil => exact absurd rfl hvalues
    | cons v rest => exact ⟨_, rfl, rfl, rfl, rfl⟩
  case missing =>
    rintro ⟨v, hv, hnot⟩
    have hmem : v ∈ values.filter fun v => ¬ v.toList <:+: f.text.toList :=
      List.mem_filter.mpr ⟨hv, decide_eq_true hnot⟩
    rw [f.valueRecords_of_missing id (hfilter ▸ List.ne_nil_of_mem hmem), hfilter,
      List.forall₂_map_right_iff, List.forall₂_same]
    intro v _
    exact ⟨rfl, rfl, rfl⟩

theorem checksSchema_schemaRecords (f : SourceFile) (id : String) (schema : Option String) :
    ChecksSchema schema (f.schemaRecords id schema) := by
  unfold schemaRecords
  rcases Text.bind_nonBlank?_cases schema with ⟨hblank, hnone⟩ | ⟨s, rfl, hne, hsome⟩
  · rw [hnone]
    exact ⟨fun _ => rfl, fun s hs hne => absurd (hblank s hs) hne⟩
  · rw [hsome]
    constructor
    · intro hall
      exact absurd (hall s rfl) hne
    · rintro _ ⟨⟩ -
      refine ⟨_, rfl, rfl, ?_⟩
      cases f.namesSchema (Text.trim s) with
      | true => exact Or.inl ⟨rfl, rfl⟩
      | false => exact Or.inr ⟨rfl, rfl⟩

theorem checksForeignKey_foreignKeyRecord (f : SourceFile) (id entry : String) :
    ChecksForeignKey entry (f.foreignKeyRecord id entry) := by
  have hcheck := (f.foreignKeyRecord_isAbout id entry).2
  unfold foreignKeyRecord at hcheck ⊢
  dsimp only at hcheck ⊢
  by_cases htarget : ForeignKey.target entry = ""
  · have hempty : (ForeignKey.target entry).isEmpty = true := by simpa using htarget
    rw [hempty] at hcheck ⊢
    exact ⟨hcheck, fun _ => ⟨rfl, rfl⟩, fun hne => absurd htarget hne⟩
  · have hfull : (ForeignKey.target entry).isEmpty = false := by simpa using htarget
    rw [hfull] at hcheck ⊢
    refine ⟨hcheck, fun hempty => absurd hempty htarget, fun _ => ?_⟩
    cases Evidence.anyFound (Evidence.tableReferencePatterns (ForeignKey.target entry)) f.text with
    | true => exact Or.inl ⟨rfl, rfl⟩
    | false => exact Or.inr ⟨rfl, f.display, rfl⟩

end SourceFile

/-! ## The records of a node -/

/-- The text in which a node is looked for: it has a location whose file can be read, and a name. -/
structure Audit.LooksInto (a : Audit) (id : String) (n : NodeRecord) (text : String) : Prop where
  read : ∃ loc raw, n.loc = some loc ∧ a.sources.read (a.resolve loc).path = .ok raw ∧
    text = Text.withUniformLineEnds raw
  named : Text.trim (NodeId.ofString id).identifier ≠ ""

/-- All records of a node: its `exists` record, and the checks of its kind behind it. -/
structure Audit.ChecksNode (a : Audit) (id : String) (n : NodeRecord)
    (rs : List CheckRecord) : Prop where
  existsAlone : (Document.kindOf id (some n) ≠ .type ∧ Document.kindOf id (some n) ≠ .table) ∨
      n.loc = none ∨
      (∃ loc fault, n.loc = some loc ∧ a.sources.read (a.resolve loc).path = .error fault) ∨
      Text.trim (NodeId.ofString id).identifier = "" →
    ∃ e, rs = [e] ∧ e.check = "exists"
  type : ∀ text, Document.kindOf id (some n) = .type → a.LooksInto id n text →
    ∃ e values schema, rs = e :: (values ++ schema) ∧ e.check = "exists" ∧
      ChecksValues text n.values values ∧ ChecksSchema n.schema schema
  table : ∀ text, Document.kindOf id (some n) = .table → a.LooksInto id n text →
    ∃ e keys, rs = e :: keys ∧ e.check = "exists" ∧ List.Forall₂ ChecksForeignKey n.fk keys

namespace SourceFile

variable {f : SourceFile} {id : String} {n : NodeRecord} {kind : NodeKind}

theorem furtherRecords_of_unnamed (h : (NodeId.ofString id).name = "") :
    f.furtherRecords id n kind = [] := by
  unfold furtherRecords
  rw [h]
  rfl

theorem furtherRecords_of_other (h : kind ≠ .type) (h' : kind ≠ .table) :
    f.furtherRecords id n kind = [] := by
  unfold furtherRecords
  split
  · rfl
  · cases kind with
    | type => exact absurd rfl h
    | table => exact absurd rfl h'
    | _ => rfl

theorem furtherRecords_type (h : (NodeId.ofString id).name ≠ "") :
    f.furtherRecords id n .type = f.valueRecords id n.values ++ f.schemaRecords id n.schema := by
  unfold furtherRecords
  rw [if_neg (by simpa using h)]

theorem furtherRecords_table (h : (NodeId.ofString id).name ≠ "") :
    f.furtherRecords id n .table = n.fk.map (f.foreignKeyRecord id) := by
  unfold furtherRecords
  rw [if_neg (by simpa using h)]

end SourceFile

namespace Audit

variable {a : Audit} {id : String} {n : NodeRecord} {f : SourceFile}

/-- A node with a source has its `exists` record and what is checked beyond it. -/
theorem nodeBlock_records_eq_cons (hcustom : (Document.kindOf id (some n)).isCustom = false)
    (hf : a.source n = .ok f) : (a.nodeBlock id n).records =
      f.existsRecord id (Document.kindOf id (some n)) ::
        f.furtherRecords id n (Document.kindOf id (some n)) := by
  rw [nodeBlock_records_of_ok hcustom hf, SourceFile.nodeRecords_eq f id n hcustom]

/-- A node that is looked into has a source of that text. -/
theorem LooksInto.exists_source {text : String} (h : a.LooksInto id n text) :
    ∃ f, a.source n = .ok f ∧ f.text = text := by
  obtain ⟨loc, raw, hloc, hread, rfl⟩ := h.read
  exact ⟨_, source_eq_ok_iff.mpr ⟨loc, raw, hloc, hread, rfl⟩, rfl⟩

/-- A node has the record of a custom kind, the record of a missing file, or its `exists` record and
what is checked beyond it. -/
theorem nodeBlock_cases (a : Audit) (id : String) (n : NodeRecord) :
    (∃ name, (a.nodeBlock id n).records = [a.customExistence id name n]) ∨
      (∃ fault, a.source n = .error fault ∧ (a.nodeBlock id n).records = [faultRecord id fault]) ∨
      ∃ f, a.source n = .ok f ∧ (Document.kindOf id (some n)).isCustom = false ∧
        (a.nodeBlock id n).records = f.existsRecord id (Document.kindOf id (some n)) ::
          f.furtherRecords id n (Document.kindOf id (some n)) := by
  cases hcustom : (Document.kindOf id (some n)).isCustom with
  | true =>
      obtain ⟨kind, hkind⟩ := NodeKind.exists_of_isCustom hcustom
      exact Or.inl ⟨kind, nodeBlock_records_of_custom hkind⟩
  | false =>
      right
      cases hf : a.source n with
      | error fault => exact Or.inl ⟨fault, rfl, nodeBlock_records_of_error hcustom hf⟩
      | ok f => exact Or.inr ⟨f, rfl, rfl, nodeBlock_records_eq_cons hcustom hf⟩

theorem checksNode_nodeBlock (a : Audit) (id : String) (n : NodeRecord) :
    a.ChecksNode id n (a.nodeBlock id n).records := by
  constructor
  case existsAlone =>
    intro hwhy
    -- A custom kind or a missing file has one record anyway; a file has nothing more to be checked.
    rcases a.nodeBlock_cases id n with
      ⟨name, hrecords⟩ | ⟨fault, -, hrecords⟩ | ⟨f, hf, -, hrecords⟩
    · exact ⟨_, hrecords, a.customExistence_check ..⟩
    · exact ⟨_, hrecords, faultRecord_check id fault⟩
    · have hnothing : f.furtherRecords id n (Document.kindOf id (some n)) = [] := by
        obtain ⟨loc, raw, hloc, hread, -⟩ := source_eq_ok_iff.mp hf
        rcases hwhy with ⟨htype, htable⟩ | hno | ⟨loc', fault, hloc', hfault⟩ | hunnamed
        · exact SourceFile.furtherRecords_of_other htype htable
        · rw [hno] at hloc
          cases hloc
        · rw [hloc] at hloc'
          cases hloc'
          rw [hread] at hfault
          cases hfault
        · exact SourceFile.furtherRecords_of_unnamed hunnamed
      rw [hrecords, hnothing]
      exact ⟨_, rfl, f.existsRecord_check ..⟩
  case type =>
    intro text hkind hlooks
    obtain ⟨f, hf, rfl⟩ := hlooks.exists_source
    have hrecords := nodeBlock_records_eq_cons (by rw [hkind]; rfl) hf
    rw [hkind, SourceFile.furtherRecords_type hlooks.named] at hrecords
    exact ⟨_, _, _, hrecords, f.existsRecord_check .., f.checksValues_valueRecords ..,
      f.checksSchema_schemaRecords ..⟩
  case table =>
    intro text hkind hlooks
    obtain ⟨f, hf, rfl⟩ := hlooks.exists_source
    have hrecords := nodeBlock_records_eq_cons (by rw [hkind]; rfl) hf
    rw [hkind, SourceFile.furtherRecords_table hlooks.named] at hrecords
    refine ⟨_, _, hrecords, f.existsRecord_check .., ?_⟩
    rw [List.forall₂_map_right_iff, List.forall₂_same]
    intro entry _
    exact f.checksForeignKey_foreignKeyRecord id entry

end Audit

/-! ## Warnings -/

/-- What a node of this kind is looked for as, in the words of its `exists` record. -/
def NodeKind.sought (id : String) (kind : NodeKind) : String :=
  let name := (NodeId.ofString id).name
  match kind with
  | .type => "type `" ++ name ++ "`"
  | .method => "method `" ++ (NodeId.ofString id).methodName ++ "`"
  | .table => "CREATE TABLE `" ++ name ++ "`"
  | .endpoint =>
    let route := Route.ofIdentifier name
    match route.method with
    | none => "route `" ++ route.path ++ "`"
    | some word => "route `" ++ Route.upperCase word ++ " " ++ route.path ++ "`"
  | .event | .custom _ => "event `" ++ name ++ "`"

theorem Location.lineOfDigits_pos {digits : List Char} {line : Nat}
    (h : lineOfDigits digits = some line) : 0 < line := by
  unfold lineOfDigits at h
  dsimp only at h
  split at h
  · rename_i hrange
    cases h
    exact hrange.1
  · cases h

/-- A location drops a line zero, so a declared line is one that a file can have. -/
theorem NodeRecord.declaredLine_pos {n : NodeRecord} {line : Nat} (h : n.declaredLine = some line) :
    0 < line := by
  unfold declaredLine at h
  obtain ⟨loc, -, hline⟩ := Option.bind_eq_some_iff.mp h
  unfold Location.ofString at hline
  dsimp only at hline
  split at hline
  · split at hline
    · exact Location.lineOfDigits_pos hline
    · cases hline
  · cases hline

/-- The blank in front of a number stays in front of it, so a single digit behind the blank is all
of its digits. -/
theorem toDigits_of_blank_suffix {front : List Char} {n : Nat} {d : Char}
    (h : [' ', d] <:+ front ++ Nat.toDigits 10 n) : Nat.toDigits 10 n = [d] := by
  have hnotBlank : ' ' ∉ Nat.toDigits 10 n := by
    intro hblank
    have hdigit : ' '.isDigit = true := Decimal.isDigit_of_mem_toDigits hblank
    exact absurd hdigit (by decide)
  obtain ⟨rest, hrest⟩ := h
  rcases List.append_eq_append_iff.mp hrest with ⟨gap, -, hgap⟩ | ⟨gap, -, hgap⟩
  · cases gap with
    | nil =>
        rw [List.nil_append] at hgap
        exact absurd (hgap ▸ List.mem_cons_self) hnotBlank
    | cons c gap =>
        obtain ⟨-, htail⟩ := List.cons.inj hgap
        rcases List.singleton_eq_append_iff.mp htail with ⟨-, hdigits⟩ | ⟨-, hnil⟩
        · exact hdigits
        · exact absurd hnil Nat.toDigits_ne_nil
  · exact absurd (hgap ▸ List.mem_append_right gap List.mem_cons_self) hnotBlank

/-- A message that ends in a positive number does not end in line zero. -/
theorem not_lineZero_of_toString {line : Nat} (h : 0 < line) (front : String) :
    ¬ "not near declared line 0".toList <:+ (front ++ toString line).toList := by
  intro hends
  have hlist : (front ++ toString line).toList = front.toList ++ Nat.toDigits 10 line := by
    rw [String.toList_append]
    exact congrArg _ Nat.toList_repr
  rw [hlist] at hends
  have hzero : Nat.toDigits 10 line = ['0'] :=
    toDigits_of_blank_suffix (List.IsSuffix.trans (by decide) hends)
  have hvalue := Decimal.digitsValue_toDigits line
  rw [hzero] at hvalue
  exact Nat.ne_of_gt h hvalue.symm

theorem not_lineZero_of_getLast {back : String} {c : Char} (h : back.toList.getLast? = some c)
    (hc : c ≠ '0') (front : String) :
    ¬ "not near declared line 0".toList <:+ (front ++ back).toList := by
  rintro ⟨rest, hrest⟩
  have hlast := congrArg List.getLast? hrest
  rw [String.toList_append, List.getLast?_append, List.getLast?_append, h] at hlast
  exact hc (Option.some.inj hlast).symm

/-- What is sought begins with one of five letters. -/
theorem NodeKind.head_sought (id : String) (kind : NodeKind) :
    ∃ c, (kind.sought id).toList[0]? = some c ∧ c ∈ ['t', 'm', 'C', 'r', 'e'] ∧
      (kind = .endpoint → c = 'r') := by
  unfold NodeKind.sought
  cases kind with
  | type => exact ⟨'t', getElem?_toList_quoting rfl _ _, by decide, by rintro ⟨⟩⟩
  | method => exact ⟨'m', getElem?_toList_quoting rfl _ _, by decide, by rintro ⟨⟩⟩
  | table => exact ⟨'C', getElem?_toList_quoting rfl _ _, by decide, by rintro ⟨⟩⟩
  | event | custom name => exact ⟨'e', getElem?_toList_quoting rfl _ _, by decide, by rintro ⟨⟩⟩
  | endpoint =>
      dsimp only
      refine ⟨'r', ?_, by decide, fun _ => rfl⟩
      cases (Route.ofIdentifier (NodeId.ofString id).name).method with
      | none => exact getElem?_toList_quoting rfl _ _
      | some word =>
          exact getElem?_toList_quoting (getElem?_toList_quoting rfl _ " ") _ _

/-- A message that begins otherwise does not speak of what is sought. -/
theorem NodeKind.ne_sought_append {m : String} {c : Char} (h : m.toList[0]? = some c)
    (hc : c ∉ ['t', 'm', 'C', 'r', 'e']) (id : String) (kind : NodeKind) (rest : String) :
    m ≠ kind.sought id ++ rest := by
  obtain ⟨d, hd, hmem, -⟩ := kind.head_sought id
  rintro rfl
  rw [getElem?_toList_append hd rest] at h
  cases h
  exact hc hmem

namespace SourceFile

variable {f : SourceFile} {id : String} {kind : NodeKind}

/-- The `exists` record says where the evidence of what is sought stands, unless the id leaves
nothing to seek. -/
theorem existsRecord_cases (f : SourceFile) (id : String) (kind : NodeKind) :
    (∃ ev, f.existsRecord id kind = f.existence id (kind.sought id) ev) ∨
      ∃ m, f.existsRecord id kind = (nodeRecord id "exists" .fail m).located f.display f.line ∧
        (m = "node id has no identifier after the kind prefix" ∨
          kind = .endpoint ∧ m = "endpoint id declares no path") := by
  by_cases hname : (NodeId.ofString id).name.isEmpty = true
  · refine Or.inr ⟨_, ?_, Or.inl rfl⟩
    unfold existsRecord
    rw [if_pos hname]
  · unfold existsRecord
    rw [if_neg hname]
    cases kind with
    | endpoint =>
        unfold endpointExistence NodeKind.sought
        dsimp only
        by_cases hpath : (Route.ofIdentifier (NodeId.ofString id).name).path.isEmpty = true
        · rw [if_pos hpath]
          exact Or.inr ⟨_, rfl, Or.inr ⟨rfl, rfl⟩⟩
        · rw [if_neg hpath]
          cases (Route.ofIdentifier (NodeId.ofString id).name).method with
          | none => exact Or.inl ⟨_, rfl⟩
          | some word => exact Or.inl ⟨_, rfl⟩
    | type | method | table | event | custom name => exact Or.inl ⟨_, rfl⟩

/-- A node that is found away from its line has a line, and its record says which. -/
theorem existsRecord_of_warn (h : (f.existsRecord id kind).status = .warn) :
    ∃ line, f.line = some line ∧ (f.existsRecord id kind).message =
      kind.sought id ++ " found but not near declared line " ++ toString line := by
  cases hline : f.line with
  | none => exact absurd h (f.existsRecord_ne_warn hline id kind)
  | some line =>
      refine ⟨line, rfl, ?_⟩
      rcases f.existsRecord_cases id kind with ⟨ev, hrecord⟩ | ⟨m, hrecord, -⟩
      · rw [hrecord] at h ⊢
        obtain rfl := (f.existence_warn_iff id _ ev).mp h
        unfold existence existenceVerdict
        rw [hline]
        rfl
      · rw [hrecord] at h
        cases h

/-- A node that is found, near its line or not, is not said to be away from line zero. -/
theorem existsRecord_not_lineZero (hpos : ∀ line, f.line = some line → 0 < line)
    (h : (f.existsRecord id kind).status ≠ .fail) :
    ¬ "not near declared line 0".toList <:+ (f.existsRecord id kind).message.toList := by
  cases hstatus : (f.existsRecord id kind).status with
  | fail => exact absurd hstatus h
  | warn =>
      obtain ⟨line, hline, hmessage⟩ := existsRecord_of_warn hstatus
      rw [hmessage]
      exact not_lineZero_of_toString (hpos line hline) _
  | pass =>
      rcases f.existsRecord_cases id kind with ⟨ev, hrecord⟩ | ⟨m, hrecord, -⟩
      · rw [hrecord] at hstatus ⊢
        cases ev with
        | elsewhere => cases hstatus
        | absent => cases hstatus
        | near =>
            unfold existence existenceVerdict
            cases hline : f.line with
            | some line =>
                show ¬ _ <:+ (kind.sought id ++ " found" ++ (" near line " ++ toString line)).toList
                rw [← String.append_assoc]
                exact not_lineZero_of_toString (hpos line hline) _
            | none =>
                show ¬ _ <:+ (kind.sought id ++ " found" ++ "").toList
                rw [String.append_empty]
                exact not_lineZero_of_getLast (c := 'd') rfl (by decide) _
      · rw [hrecord] at hstatus
        cases hstatus

theorem existsRecord_message_ne (hpos : ∀ line, f.line = some line → 0 < line) :
    (f.existsRecord id kind).message ≠
      kind.sought id ++ " found but not near declared line 0" := by
  intro hmessage
  -- A failure says something else, and without one no message ends in line zero.
  by_cases hfail : (f.existsRecord id kind).status = .fail
  · rcases f.existsRecord_cases id kind with ⟨ev, hrecord⟩ | ⟨m, hrecord, hm⟩
    · rw [hrecord] at hfail hmessage
      obtain rfl := (f.existence_fail_iff id _ ev).mp hfail
      have hnot : kind.sought id ++ " not found in " ++ f.display =
          kind.sought id ++ " found but not near declared line 0" := hmessage
      rw [String.append_assoc, String.append_right_inj] at hnot
      exact append_ne_of_char 1 rfl rfl (by decide) _ hnot.symm
    · rw [hrecord] at hmessage
      have hm' : m = kind.sought id ++ " found but not near declared line 0" := hmessage
      rcases hm with rfl | ⟨rfl, rfl⟩
      · exact NodeKind.ne_sought_append (c := 'n') rfl (by decide) id kind _ hm'
      · obtain ⟨c, hc, -, hroute⟩ := NodeKind.endpoint.head_sought id
        obtain rfl := hroute rfl
        have hhead := getElem?_toList_append hc " found but not near declared line 0"
        rw [← hm'] at hhead
        cases hhead
  · apply existsRecord_not_lineZero hpos hfail
    rw [hmessage, String.toList_append]
    exact List.IsSuffix.trans (by decide) (List.suffix_append ..)

/-- The record warns of a foreign key at most, and its message does not begin like what is sought. -/
structure SaysOther (r : CheckRecord) : Prop where
  warns : r.status = .warn → r.check = "fk"
  head : ∃ c, r.message.toList[0]? = some c ∧ c ∉ ['t', 'm', 'C', 'r', 'e']

theorem saysOther_of_mem_valueRecords {values : List String} {r : CheckRecord}
    (h : r ∈ f.valueRecords id values) : SaysOther r := by
  unfold valueRecords at h
  split at h
  · cases h
  · obtain rfl := List.mem_singleton.mp h
    exact ⟨by rintro ⟨⟩, 'a', getElem?_toList_quoting rfl _ _, by decide⟩
  · obtain ⟨v, -, rfl⟩ := List.mem_map.mp h
    exact ⟨by rintro ⟨⟩, 'd', getElem?_toList_quoting rfl _ _, by decide⟩

theorem saysOther_of_mem_schemaRecords {schema : Option String} {r : CheckRecord}
    (h : r ∈ f.schemaRecords id schema) : SaysOther r := by
  unfold schemaRecords at h
  split at h
  · cases h
  · rename_i schema _
    dsimp only at h
    obtain rfl := List.mem_singleton.mp h
    cases f.namesSchema schema with
    | true => exact ⟨by rintro ⟨⟩, 's', getElem?_toList_quoting rfl _ _, by decide⟩
    | false => exact ⟨by rintro ⟨⟩, 's', getElem?_toList_quoting rfl _ _, by decide⟩

theorem saysOther_foreignKeyRecord (f : SourceFile) (id entry : String) :
    SaysOther (f.foreignKeyRecord id entry) := by
  have hkey := f.checksForeignKey_foreignKeyRecord id entry
  refine ⟨fun _ => hkey.check, 'f', ?_, by decide⟩
  by_cases htarget : ForeignKey.target entry = ""
  · rw [(hkey.noTable htarget).2]
    exact getElem?_toList_quoting rfl _ _
  · rcases hkey.table htarget with ⟨-, hmessage⟩ | ⟨-, shown, hmessage⟩
    · rw [hmessage]
      exact getElem?_toList_quoting rfl _ _
    · rw [hmessage]
      exact getElem?_toList_append (getElem?_toList_quoting rfl _ _) _

/-- Beyond existence only foreign keys warn, and no message begins like what is sought. -/
theorem saysOther_of_mem_furtherRecords {n : NodeRecord} {r : CheckRecord}
    (h : r ∈ f.furtherRecords id n kind) : SaysOther r := by
  unfold furtherRecords at h
  split at h
  · cases h
  · cases kind with
    | type =>
        rcases List.mem_append.mp h with hr | hr
        · exact saysOther_of_mem_valueRecords hr
        · exact saysOther_of_mem_schemaRecords hr
    | table =>
        obtain ⟨entry, -, rfl⟩ := List.mem_map.mp h
        exact f.saysOther_foreignKeyRecord id entry
    | _ => cases h

end SourceFile

/-- What a record about a node may say of lines: it warns of a foreign key, or of the line that the
node declares, and that is never line zero. Failures and foreign keys are free to end in any words,
since they end in a path. -/
structure NodeRecord.KeepsToLine (n : NodeRecord) (kind : NodeKind) (r : CheckRecord) : Prop where
  warns : r.status = .warn → r.check = "fk" ∨
    r.check = "exists" ∧ ∃ line, n.declaredLine = some line ∧ 0 < line ∧ r.message =
      kind.sought r.subject ++ " found but not near declared line " ++ toString line
  notLineZero : r.message ≠ kind.sought r.subject ++ " found but not near declared line 0"
  notEnding : r.check = "exists" → r.status ≠ .fail →
    ¬ "not near declared line 0".toList <:+ r.message.toList

namespace Audit

variable {a : Audit} {id : String} {n : NodeRecord} {kind : NodeKind} {r : CheckRecord}

theorem keepsToLine_of_head {c : Char} (hwarn : r.status = .warn → r.check = "fk")
    (hhead : r.message.toList[0]? = some c) (hc : c ∉ ['t', 'm', 'C', 'r', 'e'])
    (hend : r.check = "exists" → r.status ≠ .fail →
      ¬ "not near declared line 0".toList <:+ r.message.toList) : n.KeepsToLine kind r where
  warns := fun h => Or.inl (hwarn h)
  notLineZero := NodeKind.ne_sought_append hhead hc r.subject kind _
  notEnding := hend

/-- A failure that does not begin like what is sought says nothing of lines. -/
theorem keepsToLine_failure {message : String} {c : Char} (h : message.toList[0]? = some c)
    (hc : c ∉ ['t', 'm', 'C', 'r', 'e']) (id check : String) (file : Option String)
    (line : Option Nat) :
    n.KeepsToLine kind { nodeRecord id check .fail message with file, line } :=
  keepsToLine_of_head (by rintro ⟨⟩) h hc fun _ hstatus => absurd rfl hstatus

theorem keepsToLine_customExistence (a : Audit) (id name : String) (n : NodeRecord) :
    n.KeepsToLine kind (a.customExistence id name n) := by
  unfold customExistence
  cases n.loc with
  | none => exact keepsToLine_failure (c := 'n') rfl (by decide) ..
  | some loc =>
      dsimp only
      by_cases hread : a.isReadable loc = true
      · rw [if_pos hread]
        exact keepsToLine_of_head (c := 'f') (by rintro ⟨⟩) (getElem?_toList_quoting rfl _ _)
          (by decide) fun _ _ => not_lineZero_of_getLast (c := ')') rfl (by decide) _
      · rw [if_neg hread]
        exact keepsToLine_failure (c := 'f') (getElem?_toList_append rfl _) (by decide) ..

theorem keepsToLine_faultRecord (id : String) (fault : SourceFault) (n : NodeRecord) :
    n.KeepsToLine kind (faultRecord id fault) := by
  cases fault with
  | noLocation => exact keepsToLine_failure (c := 'n') rfl (by decide) ..
  | unreadable u =>
      exact keepsToLine_failure (c := 'f') (getElem?_toList_append rfl _) (by decide) ..

theorem keepsToLine_existsRecord {f : SourceFile} (hline : f.line = n.declaredLine) :
    n.KeepsToLine kind (f.existsRecord id kind) := by
  have hsubject : (f.existsRecord id kind).subject = id := (f.existsRecord_isAbout id kind).2
  have hpos : ∀ line, f.line = some line → 0 < line := by
    intro line h
    exact NodeRecord.declaredLine_pos (hline ▸ h)
  constructor
  case warns =>
    intro hwarn
    obtain ⟨line, hdeclared, hmessage⟩ := SourceFile.existsRecord_of_warn hwarn
    rw [hsubject]
    exact Or.inr ⟨f.existsRecord_check id kind, line, hline ▸ hdeclared, hpos line hdeclared,
      hmessage⟩
  case notLineZero =>
    rw [hsubject]
    exact SourceFile.existsRecord_message_ne hpos
  case notEnding => exact fun _ hstatus => SourceFile.existsRecord_not_lineZero hpos hstatus

theorem keepsToLine_of_mem_furtherRecords {f : SourceFile}
    (h : r ∈ f.furtherRecords id n kind) : n.KeepsToLine kind r := by
  obtain ⟨hwarn, c, hhead, hc⟩ := SourceFile.saysOther_of_mem_furtherRecords h
  apply keepsToLine_of_head hwarn hhead hc
  intro hcheck
  exact absurd hcheck (SourceFile.furtherRecords_check_ne h)

/-- Every record of a node keeps to the line that the node declares. -/
theorem keepsToLine_of_mem_nodeBlock (h : r ∈ (a.nodeBlock id n).records) :
    n.KeepsToLine (Document.kindOf id (some n)) r := by
  rcases a.nodeBlock_cases id n with
    ⟨name, hrecords⟩ | ⟨fault, -, hrecords⟩ | ⟨f, hf, -, hrecords⟩
  · rw [hrecords, List.mem_singleton] at h
    subst h
    exact a.keepsToLine_customExistence id name n
  · rw [hrecords, List.mem_singleton] at h
    subst h
    exact keepsToLine_faultRecord id fault n
  · rw [hrecords, List.mem_cons] at h
    rcases h with hfirst | h
    · rw [hfirst]
      exact keepsToLine_existsRecord (line_source hf)
    · exact keepsToLine_of_mem_furtherRecords h

end Audit

/-- **The checks beyond existence are complete, and they warn of foreign keys alone.** -/
theorem further_checks (a : Audit) :
    (∀ id n, a.document.node? id = some n → a.ChecksNode id n (a.report.recordsOf .nodes id)) ∧
      ∀ r ∈ a.report.phaseRecords .nodes, ∃ n, a.document.node? r.subject = some n ∧
        n.KeepsToLine (Document.kindOf r.subject (some n)) r := by
  constructor
  · intro id n hn
    rw [Audit.recordsOf_nodes, hn, Option.map_some, Option.getD_some]
    exact a.checksNode_nodeBlock id n
  · intro r hr
    rw [Audit.report_phaseRecords] at hr
    obtain ⟨b, hb, hr⟩ := List.mem_flatMap.mp hr
    obtain ⟨⟨id, n⟩, hentry, rfl⟩ := List.mem_map.mp hb
    obtain rfl : r.subject = id := ((a.nodeBlock_isNodeBlock id n).about r hr).2
    exact ⟨n, Registry.get?_eq_some_iff.mpr hentry, Audit.keepsToLine_of_mem_nodeBlock hr⟩

/-- A type with three values, two of them not there, and a blank before its schema. -/
def bookType : NodeRecord where
  loc := some "a.ts:8"
  values := ["lost", "new", "lost"]
  schema := some " Shelf"

/-- A table with three foreign keys: to a table that is mentioned, one that is not, and none. -/
def bookTable : NodeRecord where
  loc := some "b.sql:0"
  fk := ["shelf -> shelves.id", "authors(id)", "shelf -> "]

/-- The type stands too far above its declared line; the line zero of the table is none. -/
def bookMap : Audit where
  sources := .ofList [(⟨"a.ts"⟩, some "type Book = 'new'\n\n\n\n\n\n\nShelf"),
    (⟨"b.sql"⟩, some "CREATE TABLE books (shelf REFERENCES shelves)")]
  document := { nodes := .ofList [("type:Book", bookType), ("table:books", bookTable)] }
  root := ⟨""⟩

theorem book_map_records :
    bookMap.document.node? "type:Book" = some bookType ∧
      bookMap.LooksInto "type:Book" bookType "type Book = 'new'\n\n\n\n\n\n\nShelf" ∧
      bookMap.report.records.map (fun r => (r.check, r.status, r.message)) =
        [("exists", .warn, "type `Book` found but not near declared line 8"),
         ("values", .fail, "declared value `lost` not found"),
         ("values", .fail, "declared value `lost` not found"),
         ("schema", .pass, "schema `Shelf` present"),
         ("exists", .pass, "CREATE TABLE `books` found"),
         ("fk", .pass, "fk target `shelves` referenced"),
         ("fk", .warn, "fk target `authors` not referenced in b.sql"),
         ("fk", .warn, "fk entry `shelf -> ` names no table")] ∧
      (∃ e values schema, bookMap.report.recordsOf .nodes "type:Book" = e :: (values ++ schema) ∧
        e.check = "exists" ∧ ChecksSchema bookType.schema schema) ∧
      ∀ r ∈ bookMap.report.phaseRecords .nodes, ∃ n, bookMap.document.node? r.subject = some n ∧
        n.KeepsToLine (Document.kindOf r.subject (some n)) r := by
  have htype : bookMap.document.node? "type:Book" = some bookType := by decide
  have hlooks : bookMap.LooksInto "type:Book" bookType
      "type Book = 'new'\n\n\n\n\n\n\nShelf" :=
    ⟨⟨"a.ts:8", _, rfl, rfl, by decide +kernel⟩, by decide +kernel⟩
  obtain ⟨hchecks, hlines⟩ := further_checks bookMap
  obtain ⟨e, values, schema, hrecords, he, -, hschema⟩ :=
    (hchecks _ _ htype).type _ (by decide) hlooks
  exact ⟨htype, hlooks, by decide +kernel, ⟨e, values, schema, hrecords, he, hschema⟩, hlines⟩

end ContractAudit
