import ContractAudit.Proofs.Audit.ReportStructure
import ContractAudit.Proofs.Evidence.ForeignKeys
import ContractAudit.Proofs.Flow.References
import ContractAudit.Proofs.Report.Lines

/-!
# The lines of a report

The text of a report is made of a line for each record, but the texts of the map stand in these lines
as they are, and a line feed in one of them cuts its line in two (`report_lines`). Most of them are
rules: the text of a rule may go over several lines, and only the blanks around it are dropped. A map
without such texts has a report of one line a record, whatever its files hold.
-/

namespace ContractAudit

/-! ## Maps on one line -/

/-- The texts of a node that a report may show hold no line feed; where the blanks around a text are
dropped, only what is left counts. -/
structure NodeRecord.OneLine (n : NodeRecord) : Prop where
  kind : ∀ kind ∈ n.kind, IsOneLine (Text.trim kind)
  loc : ∀ loc ∈ n.loc, IsOneLine (Text.trim loc)
  schema : ∀ schema ∈ n.schema, IsOneLine (Text.trim schema)
  values : ∀ value ∈ n.values, IsOneLine value
  fk : ∀ entry ∈ n.fk, IsOneLine entry

structure EdgeRecord.OneLine (e : EdgeRecord) : Prop where
  source : IsOneLine e.source
  target : IsOneLine e.target
  rel : IsOneLine e.rel

/-- The destinations and labels of a step hold no line feed. -/
def Continuation.OneLine : Continuation → Prop
  | .target raw => IsOneLine raw
  | .branch arms => ∀ arm ∈ arms.entries, IsOneLine arm.1 ∧ IsOneLine arm.2

structure Step.OneLine (s : Step) : Prop where
  node : IsOneLine s.node
  next : s.next.OneLine

structure InvariantRecord.OneLine (i : InvariantRecord) : Prop where
  id : IsOneLine i.id
  rule : IsOneLine (Text.trim i.rule)
  scope : ∀ id ∈ i.scope, IsOneLine id
  enforce : ∀ enforce ∈ i.enforce, IsOneLine (Text.trim enforce)

/-- The texts of a map that a report may show hold no line feed. -/
structure Document.OneLine (d : Document) : Prop where
  name : IsOneLine d.metadata.name
  root : IsOneLine (Text.trim d.metadata.root)
  version : IsOneLine d.version
  nodes : ∀ e ∈ d.nodes.entries, IsOneLine e.1 ∧ e.2.OneLine
  edges : ∀ e ∈ d.edges, e.OneLine
  flows : ∀ e ∈ d.flows.entries, IsOneLine e.1 ∧ ∀ s ∈ e.2.steps, s.OneLine
  invariants : ∀ i ∈ d.invariants, i.OneLine

/-! ## Names -/

theorem NodeId.isOneLine_ofString {raw : String} (h : IsOneLine raw) :
    IsOneLine (NodeId.ofString raw).kind ∧ IsOneLine (NodeId.ofString raw).identifier := by
  unfold NodeId.ofString
  split
  · rename_i kind identifier hcut
    obtain ⟨hkind, hidentifier⟩ := Text.cutFirst_subset hcut
    exact ⟨h.ofList_of_subset hkind, h.ofList_of_subset hidentifier⟩
  · exact ⟨.literal rfl, h⟩

theorem NodeId.isOneLine_name {raw : String} (h : IsOneLine raw) :
    IsOneLine (NodeId.ofString raw).name :=
  Text.isOneLine_trim (NodeId.isOneLine_ofString h).2

theorem NodeId.isOneLine_methodName {raw : String} (h : IsOneLine raw) :
    IsOneLine (NodeId.ofString raw).methodName := by
  have hidentifier := (NodeId.isOneLine_ofString h).2
  unfold methodName
  split
  · rename_i last hcut
    exact Text.isOneLine_trim (hidentifier.ofList_of_subset (Text.cutLast_subset hcut).2)
  · exact Text.isOneLine_trim hidentifier

theorem NodeKind.isOneLine_text_ofString {raw : String} (h : IsOneLine (Text.trim raw)) :
    IsOneLine (NodeKind.ofString raw).text := by
  unfold NodeKind.ofString
  split
  iterate 5 exact .literal rfl
  exact h

theorem Document.isOneLine_kindOf {id : String} {node : NodeRecord} (hid : IsOneLine id)
    (hnode : node.OneLine) : IsOneLine (kindOf id (some node)).text := by
  unfold kindOf
  rw [Option.bind_some]
  cases hkind : node.kind with
  | some kind => exact NodeKind.isOneLine_text_ofString (hnode.kind kind hkind)
  | none =>
      exact NodeKind.isOneLine_text_ofString (Text.isOneLine_trim (NodeId.isOneLine_ofString hid).1)

theorem Route.isOneLine_ofIdentifier {identifier : String} (h : IsOneLine identifier) :
    IsOneLine (Route.ofIdentifier identifier).path ∧
      ∀ method ∈ (Route.ofIdentifier identifier).method, IsOneLine method := by
  have htrim := Text.isOneLine_trim h
  unfold Route.ofIdentifier
  dsimp only
  split
  · rename_i head rest hcut
    obtain ⟨hhead, hrest⟩ := Text.cutFirst_subset hcut
    split
    · refine ⟨Text.isOneLine_trim (htrim.ofList_of_subset hrest), ?_⟩
      rintro method ⟨⟩
      exact htrim.ofList_of_subset hhead
    · exact ⟨htrim, nofun⟩
  · exact ⟨htrim, nofun⟩

theorem eq_newline_of_toUpper {c : Char} (h : c.toUpper = '\n') : c = '\n' := by
  unfold Char.toUpper at h
  split at h
  · rename_i hletter
    have hval := Char.ext_iff.mp h
    dsimp only at hval
    have hc : c.val = '\n'.val - ('A'.val - 'a'.val) := by rw [← hval, UInt32.add_sub_cancel]
    rw [hc] at hletter
    exact absurd hletter (by decide)
  · exact h

theorem Route.isOneLine_upperCase {s : String} (h : IsOneLine s) : IsOneLine (upperCase s) := by
  intro hmem
  rw [upperCase, String.toList_ofList] at hmem
  obtain ⟨c, hc, hup⟩ := List.mem_map.mp hmem
  exact h (eq_newline_of_toUpper hup ▸ hc)

theorem ForeignKey.isOneLine_target {entry : String} (h : IsOneLine entry) :
    IsOneLine (ForeignKey.target entry) :=
  h.ofList_of_subset (ForeignKey.targetChars_isInfix _).subset

/-! ## Records of nodes -/

theorem nodeRecord_oneLine {id check message : String} (hid : IsOneLine id) (hcheck : IsOneLine check)
    (hmessage : IsOneLine message) (status : Status) : (nodeRecord id check status message).OneLine :=
  ⟨hid, hcheck, hmessage, nofun⟩

namespace SourceFile

variable {f : SourceFile} {id : String}

theorem existence_oneLine (hf : IsOneLine f.display) (hid : IsOneLine id) {what : String}
    (hwhat : IsOneLine what) (evidence : Evidence) : (f.existence id what evidence).OneLine := by
  have hmessage : IsOneLine (f.existenceVerdict what evidence).2 := by
    unfold existenceVerdict
    cases evidence with
    | near =>
        cases f.line with
        | none => exact (hwhat.append (.literal rfl)).append (.literal rfl)
        | some line =>
            exact (hwhat.append (.literal rfl)).append ((IsOneLine.literal rfl).append (.repr_nat line))
    | elsewhere => exact (hwhat.append (.literal rfl)).append (.repr_nat _)
    | absent => exact (hwhat.append (.literal rfl)).append hf
  exact (nodeRecord_oneLine hid (.literal rfl) hmessage _).located hf _

theorem endpointExistence_oneLine (hf : IsOneLine f.display) (hid : IsOneLine id) {name : String}
    (hname : IsOneLine name) : (f.endpointExistence id name).OneLine := by
  obtain ⟨hpath, hmethod⟩ := Route.isOneLine_ofIdentifier hname
  unfold endpointExistence
  dsimp only
  split
  · exact (nodeRecord_oneLine hid (.literal rfl) (.literal rfl) _).located hf _
  · split
    · exact existence_oneLine hf hid (hpath.enclosed rfl rfl) _
    · rename_i method hm
      have hupper := Route.isOneLine_upperCase (hmethod method hm)
      have hroute : IsOneLine ("route `" ++ Route.upperCase method ++ " " ++
          (Route.ofIdentifier name).path) := .append (hupper.enclosed rfl rfl) hpath
      exact existence_oneLine hf hid (hroute.append (.literal rfl)) _

theorem valueRecords_oneLine (hf : IsOneLine f.display) (hid : IsOneLine id) {values : List String}
    (hvalues : ∀ value ∈ values, IsOneLine value) : ∀ r ∈ f.valueRecords id values, r.OneLine := by
  intro r hr
  unfold valueRecords at hr
  split at hr
  · cases hr
  · rw [List.mem_singleton] at hr
    subst hr
    exact (nodeRecord_oneLine hid (.literal rfl) (IsOneLine.enclosed (.repr_nat _) rfl rfl) _).located hf _
  · rename_i missing hmissing
    obtain ⟨value, hvalue, rfl⟩ := List.mem_map.mp hr
    have hv := hvalues value (List.mem_of_mem_filter hvalue)
    exact (nodeRecord_oneLine hid (.literal rfl) (hv.enclosed rfl rfl) _).located hf _

theorem schemaRecords_oneLine (hf : IsOneLine f.display) (hid : IsOneLine id) {schema : Option String}
    (hschema : ∀ s ∈ schema, IsOneLine (Text.trim s)) :
    ∀ r ∈ f.schemaRecords id schema, r.OneLine := by
  intro r hr
  unfold schemaRecords at hr
  split at hr
  · cases hr
  · rename_i shown hshown
    obtain ⟨s, hs, hshown⟩ := Option.bind_eq_some_iff.mp hshown
    have hone := Text.isOneLine_of_nonBlank? (hschema s hs) hshown
    rw [List.mem_singleton] at hr
    subst hr
    split
    · exact (nodeRecord_oneLine hid (.literal rfl) (hone.enclosed rfl rfl) _).located hf _
    · exact (nodeRecord_oneLine hid (.literal rfl) (hone.enclosed rfl rfl) _).located hf _

theorem foreignKeyRecord_oneLine (hf : IsOneLine f.display) (hid : IsOneLine id) {entry : String}
    (hentry : IsOneLine entry) : (f.foreignKeyRecord id entry).OneLine := by
  have htarget := ForeignKey.isOneLine_target hentry
  unfold foreignKeyRecord
  dsimp only
  split
  · exact (nodeRecord_oneLine hid (.literal rfl) (hentry.enclosed rfl rfl) _).located hf _
  · split
    · exact (nodeRecord_oneLine hid (.literal rfl) (htarget.enclosed rfl rfl) _).located hf _
    · exact (nodeRecord_oneLine hid (.literal rfl) ((htarget.enclosed rfl rfl).append hf) _).located hf _

theorem nodeRecords_oneLine (hf : IsOneLine f.display) (hid : IsOneLine id) {node : NodeRecord}
    (hnode : node.OneLine) (kind : NodeKind) : ∀ r ∈ f.nodeRecords id node kind, r.OneLine := by
  have hname := NodeId.isOneLine_name hid
  have hmethod := NodeId.isOneLine_methodName hid
  unfold nodeRecords
  dsimp only
  split
  · exact List.forall_mem_singleton.mpr
      ((nodeRecord_oneLine hid (.literal rfl) (.literal rfl) _).located hf _)
  · cases kind with
    | type =>
        refine List.forall_mem_cons.mpr ⟨existence_oneLine hf hid (hname.enclosed rfl rfl) _, ?_⟩
        exact List.forall_mem_append.mpr
          ⟨valueRecords_oneLine hf hid hnode.values, schemaRecords_oneLine hf hid hnode.schema⟩
    | method =>
        exact List.forall_mem_singleton.mpr (existence_oneLine hf hid (hmethod.enclosed rfl rfl) _)
    | table =>
        refine List.forall_mem_cons.mpr ⟨existence_oneLine hf hid (hname.enclosed rfl rfl) _, ?_⟩
        exact List.forall_mem_map.mpr fun entry hentry =>
          foreignKeyRecord_oneLine hf hid (hnode.fk entry hentry)
    | endpoint => exact List.forall_mem_singleton.mpr (endpointExistence_oneLine hf hid hname)
    | event =>
        exact List.forall_mem_singleton.mpr (existence_oneLine hf hid (hname.enclosed rfl rfl) _)
    | custom name => nofun

end SourceFile

/-! ## Records of an audit -/

namespace Audit

variable {a : Audit}

/-- The root of the project and the texts of the map hold no line feed. -/
structure OneLine (a : Audit) : Prop where
  root : IsOneLine a.root.text
  document : a.document.OneLine

theorem OneLine.shown (h : a.OneLine) {loc : String} (hloc : IsOneLine (Text.trim loc)) :
    IsOneLine (a.shown (a.resolve loc).path) :=
  FilePath.isOneLine_shown (Location.isOneLine_resolve h.root h.document.root hloc) a.root

/-- A source that can be read is shown on one line, and so is one that cannot. -/
theorem OneLine.source (h : a.OneLine) {node : NodeRecord} (hnode : node.OneLine) :
    (∀ f, a.source node = .ok f → IsOneLine f.display) ∧
      ∀ u, a.source node = .error (.unreadable u) → IsOneLine u.shown := by
  unfold Audit.source
  cases hloc : node.loc with
  | none => exact ⟨nofun, nofun⟩
  | some loc =>
      have hshown := h.shown (hnode.loc loc hloc)
      dsimp only
      unfold sourceAt
      dsimp only
      split
      · exact ⟨by rintro f ⟨⟩; exact hshown, nofun⟩
      · exact ⟨nofun, by rintro u ⟨⟩; exact hshown⟩

theorem OneLine.customExistence (h : a.OneLine) {id kind : String} {node : NodeRecord}
    (hid : IsOneLine id) (hkind : IsOneLine kind) (hnode : node.OneLine) :
    (a.customExistence id kind node).OneLine := by
  unfold Audit.customExistence
  cases hloc : node.loc with
  | none => exact nodeRecord_oneLine hid (.literal rfl) (.literal rfl) _
  | some loc =>
      have hshown := h.shown (hnode.loc loc hloc)
      dsimp only
      split
      · exact (nodeRecord_oneLine hid (.literal rfl) (hkind.enclosed rfl rfl) _).located hshown _
      · refine CheckRecord.OneLine.located ?_ hshown _
        exact nodeRecord_oneLine hid (.literal rfl) ((IsOneLine.literal rfl).append hshown) _

theorem OneLine.nodeBlock (h : a.OneLine) {id : String} {node : NodeRecord} (hid : IsOneLine id)
    (hnode : node.OneLine) : ∀ r ∈ (a.nodeBlock id node).records, r.OneLine := by
  cases hc : (Document.kindOf id (some node)).isCustom with
  | true =>
      obtain ⟨kind, hk⟩ := NodeKind.exists_of_isCustom hc
      have hkind := Document.isOneLine_kindOf hid hnode
      rw [hk] at hkind
      rw [nodeBlock_records_of_custom hk]
      exact List.forall_mem_singleton.mpr (h.customExistence hid hkind hnode)
  | false =>
      obtain ⟨hok, herror⟩ := h.source hnode
      cases hs : a.source node with
      | error fault =>
          rw [nodeBlock_records_of_error hc hs]
          refine List.forall_mem_singleton.mpr ?_
          cases fault with
          | noLocation => exact nodeRecord_oneLine hid (.literal rfl) (.literal rfl) _
          | unreadable u =>
              have hu := herror u hs
              refine CheckRecord.OneLine.located ?_ hu _
              exact nodeRecord_oneLine hid (.literal rfl) ((IsOneLine.literal rfl).append hu) _
      | ok f =>
          rw [nodeBlock_records_of_ok hc hs]
          exact SourceFile.nodeRecords_oneLine (hok f hs) hid hnode _

end Audit

/-! ## Records of edges -/

theorem edgeRecord_oneLine {e : EdgeRecord} (h : e.OneLine) {message : String}
    (hmessage : IsOneLine message) (status : Status) : (edgeRecord e status message).OneLine := by
  refine ⟨?_, show IsOneLine "relation" from .literal rfl, hmessage, nofun⟩
  show IsOneLine e.label
  unfold EdgeRecord.label
  exact (((h.source.append (.literal rfl)).append h.rel).append (.literal rfl)).append h.target

theorem Relation.isOneLine_text_ofString {raw : String} (h : IsOneLine raw) :
    IsOneLine (Relation.ofString raw).text := by
  unfold Relation.ofString
  split
  iterate 7 exact .literal rfl
  exact Text.isOneLine_trim h

theorem SourceFile.edgeVerdict_oneLine (f : SourceFile) {e : EdgeRecord} (h : e.OneLine)
    {schema : Option String} (hschema : ∀ s ∈ schema, IsOneLine (Text.trim s)) :
    IsOneLine (f.edgeVerdict e schema).2 := by
  have hname := NodeId.isOneLine_name h.target
  have hmethod := NodeId.isOneLine_methodName h.target
  have hverdict : ∀ {patterns : List Pattern} {found : String} {otherwise : Status × String},
      IsOneLine found → IsOneLine otherwise.2 → IsOneLine (f.verdict patterns found otherwise).2 := by
    intro patterns found otherwise hfound hotherwise
    unfold verdict
    split
    · exact hfound
    · exact hotherwise
  have haccess : ∀ {word : String}, IsOneLine word →
      IsOneLine (word ++ " access to `" ++ (NodeId.ofString e.target).name ++ "` found") :=
    fun hword => ((hword.append (.literal rfl)).append hname).append (.literal rfl)
  unfold edgeVerdict
  dsimp only
  cases hrel : e.relation with
  | coChange => exact IsOneLine.literal rfl
  | validates =>
      dsimp only
      unfold validatesVerdict
      split
      · exact h.target.enclosed rfl rfl
      · rename_i shown hshown
        obtain ⟨s, hs, hshown⟩ := Option.bind_eq_some_iff.mp hshown
        have hone := Text.isOneLine_of_nonBlank? (hschema s hs) hshown
        exact hverdict (hone.enclosed rfl rfl) (hone.enclosed rfl rfl)
  | calls => exact hverdict (hmethod.enclosed rfl rfl) (hmethod.enclosed rfl rfl)
  | writes => exact hverdict (haccess (.literal rfl)) (hname.enclosed rfl rfl)
  | reads => exact hverdict (haccess (.literal rfl)) (hname.enclosed rfl rfl)
  | emits => exact hverdict (hname.enclosed rfl rfl) (hname.enclosed rfl rfl)
  | listens => exact hverdict (hname.enclosed rfl rfl) (hname.enclosed rfl rfl)
  | custom rel =>
      have htext := Relation.isOneLine_text_ofString h.rel
      rw [EdgeRecord.relation] at hrel
      rw [hrel] at htext
      exact IsOneLine.enclosed htext rfl rfl

namespace Audit

variable {a : Audit}

theorem missingEnds_oneLine {e : EdgeRecord} (h : e.OneLine) :
    ∀ s ∈ a.missingEnds e, IsOneLine s := by
  have hsource := h.source
  have htarget := h.target
  unfold missingEnds
  refine List.forall_mem_append.mpr ⟨?_, ?_⟩
  · split
    · nofun
    · exact List.forall_mem_singleton.mpr ((IsOneLine.literal rfl).append hsource)
  · split
    · nofun
    · exact List.forall_mem_singleton.mpr ((IsOneLine.literal rfl).append htarget)

theorem OneLine.node? (h : a.OneLine) {id : String} {node : NodeRecord}
    (hnode : a.document.node? id = some node) : node.OneLine :=
  (h.document.nodes _ (Registry.mem_of_get? hnode)).2

theorem OneLine.edgeBlock (h : a.OneLine) {e : EdgeRecord} (he : e.OneLine) :
    ∀ r ∈ (a.edgeBlock e).records, r.OneLine := by
  rcases a.edgeBlock_cases e with ⟨source, target, hsource, htarget⟩ | hmissing
  · obtain ⟨hok, herror⟩ := h.source (h.node? hsource)
    cases hs : a.source source with
    | error fault =>
        rw [edgeBlock_records_of_error hsource htarget hs]
        refine List.forall_mem_singleton.mpr ?_
        cases fault with
        | noLocation => exact edgeRecord_oneLine he (he.source.enclosed rfl rfl) _
        | unreadable u =>
            have hu := herror u hs
            exact (edgeRecord_oneLine he ((IsOneLine.literal rfl).append hu) _).located hu _
    | ok f =>
        rw [edgeBlock_records_of_ok hsource htarget hs]
        exact List.forall_mem_singleton.mpr ((edgeRecord_oneLine he
          (f.edgeVerdict_oneLine he (h.node? htarget).schema) _).located (hok f hs) _)
  · rw [hmissing]
    exact List.forall_mem_singleton.mpr
      (edgeRecord_oneLine he (IsOneLine.joinWith (.literal rfl) (missingEnds_oneLine he)) _)

end Audit

/-! ## Records of flows -/

theorem flowRecord_oneLine {name check message : String} (hname : IsOneLine name)
    (hcheck : IsOneLine check) (hmessage : IsOneLine message) (status : Status) :
    (flowRecord name check status message).OneLine :=
  ⟨hname, hcheck, hmessage, nofun⟩

theorem Destination.isOneLine_node {raw id : String} (h : IsOneLine raw)
    (hid : (Destination.ofString raw).node? = some id) : IsOneLine id := by
  unfold ofString at hid
  repeat' split at hid
  iterate 3 cases hid
  cases hid
  exact h

theorem Step.OneLine.references {s : Step} (h : s.OneLine) : ∀ id ∈ s.references, IsOneLine id := by
  refine List.forall_mem_cons.mpr ⟨h.node, fun id hid => ?_⟩
  have hnext := h.next
  cases hn : s.next with
  | target raw =>
      rw [hn] at hid hnext
      exact Destination.isOneLine_node hnext (Option.mem_toList.mp hid)
  | branch arms =>
      rw [hn] at hid hnext
      obtain ⟨raw, hraw, hid⟩ := List.mem_filterMap.mp hid
      obtain ⟨arm, harm, rfl⟩ := List.mem_map.mp hraw
      exact Destination.isOneLine_node (hnext arm harm).2 hid

namespace FlowRecord

variable {f : FlowRecord} {name : String}

theorem existence_oneLine (hname : IsOneLine name) (h : ∀ s ∈ f.steps, s.OneLine)
    (declared : String → Bool) : (f.existence name declared).OneLine := by
  unfold existence
  split
  · exact flowRecord_oneLine hname (.literal rfl) (.enclosed (.repr_nat _) rfl rfl) _
  · refine flowRecord_oneLine hname (.literal rfl) (.append (.literal rfl) ?_) _
    refine IsOneLine.joinWith (.literal rfl) fun id hid => ?_
    obtain ⟨s, hs, hid⟩ := mem_references.mp (List.mem_of_mem_filter hid)
    exact (h s hs).references id hid

/-- The arms of a flow come from its branches. -/
theorem armTargets_oneLine (h : ∀ s ∈ f.steps, s.OneLine) :
    ∀ arm ∈ f.armTargets, IsOneLine arm.label ∧ IsOneLine arm.target := by
  intro arm harm
  obtain ⟨⟨s, index⟩, hs, harm⟩ := List.mem_flatMap.mp harm
  obtain ⟨⟨label, target⟩, htarget, rfl⟩ := List.mem_map.mp harm
  have hnext := (h s (List.fst_mem_of_mem_zipIdx hs)).next
  cases hn : s.next with
  | target raw =>
      rw [hn] at htarget
      cases htarget
  | branch arms =>
      rw [hn] at htarget hnext
      obtain ⟨⟨label', raw⟩, hraw, htarget⟩ := List.mem_filterMap.mp htarget
      obtain ⟨id, hid, heq⟩ := Option.map_eq_some_iff.mp htarget
      cases heq
      exact ⟨(hnext _ hraw).1, Destination.isOneLine_node (hnext _ hraw).2 hid⟩

theorem reachability_oneLine (hname : IsOneLine name) (h : ∀ s ∈ f.steps, s.OneLine) :
    ∀ r ∈ f.reachability name, r.OneLine := by
  unfold reachability
  split
  · exact List.forall_mem_singleton.mpr (flowRecord_oneLine hname (.literal rfl) (.literal rfl) _)
  · refine List.forall_mem_map.mpr fun arm harm => ?_
    obtain ⟨hlabel, htarget⟩ := armTargets_oneLine h arm (List.mem_of_mem_filter harm)
    have harrow : IsOneLine ("branch " ++ arm.label ++ " -> " ++ arm.target) :=
      .append (hlabel.enclosed rfl rfl) htarget
    have hstep : IsOneLine ("branch " ++ arm.label ++ " -> " ++ arm.target ++ " (step " ++
        toString arm.position) := .append (.append harrow (.literal rfl)) (.repr_nat _)
    exact flowRecord_oneLine hname (.literal rfl) (.append hstep (.literal rfl)) _

end FlowRecord

/-! ## Records of invariants -/

theorem InvariantRecord.OneLine.reviewMessage {i : InvariantRecord} (h : i.OneLine) :
    IsOneLine i.reviewMessage := by
  unfold InvariantRecord.reviewMessage
  refine .append (.append (.literal rfl) h.rule) ?_
  split
  · rename_i shown hshown
    obtain ⟨enforce, henforce, hshown⟩ := Option.bind_eq_some_iff.mp hshown
    exact (Text.isOneLine_of_nonBlank? (h.enforce enforce henforce) hshown).enclosed rfl rfl
  · exact .literal rfl

namespace Audit

variable {a : Audit}

theorem OneLine.invariantVerdict (h : a.OneLine) {i : InvariantRecord} (hi : i.OneLine) :
    IsOneLine (a.invariantVerdict i).2 := by
  unfold Audit.invariantVerdict
  split
  · exact .literal rfl
  · split
    · rename_i id ids hmissing
      refine .append (.literal rfl) (IsOneLine.joinWith (.literal rfl) ?_)
      rw [← hmissing]
      exact fun id hid => hi.scope id (List.mem_of_mem_filter hid)
    · split
      · rename_i entry entries hmissing
        refine .append (.literal rfl) (IsOneLine.joinWith (.literal rfl) ?_)
        rw [← hmissing]
        intro shown hshown
        obtain ⟨id, hid, hshown⟩ := List.mem_filterMap.mp hshown
        unfold missingFile? at hshown
        split at hshown
        · cases hshown
          exact .append (hi.scope id hid) (.literal rfl)
        · rename_i loc hloc
          obtain ⟨node, hnode, hloc⟩ := Option.bind_eq_some_iff.mp hloc
          split at hshown
          · cases hshown
          · cases hshown
            exact h.shown ((h.node? hnode).loc loc hloc)
      · exact hi.reviewMessage

/-! ## Reports -/

/-- Every record of an audit of texts on one line is on one line. -/
theorem OneLine.records (h : a.OneLine) : ∀ r ∈ a.report.records, r.OneLine := by
  rw [report_records_inOrder]
  unfold recordsInOrder
  refine List.forall_mem_append.mpr ⟨List.forall_mem_append.mpr ⟨List.forall_mem_append.mpr
    ⟨List.forall_mem_flatMap.mpr fun e he => ?_, List.forall_mem_flatMap.mpr fun e he => ?_⟩,
    List.forall_mem_flatMap.mpr fun e he => ?_⟩, List.forall_mem_flatMap.mpr fun i hi => ?_⟩
  · obtain ⟨hid, hnode⟩ := h.document.nodes e he
    exact h.nodeBlock hid hnode
  · exact h.edgeBlock (h.document.edges e he)
  · obtain ⟨hname, hsteps⟩ := h.document.flows e he
    exact List.forall_mem_cons.mpr ⟨FlowRecord.existence_oneLine hname hsteps _,
      FlowRecord.reachability_oneLine hname hsteps⟩
  · have hi := h.document.invariants i hi
    exact List.forall_mem_singleton.mpr ⟨hi.id, .literal rfl, h.invariantVerdict hi, nofun⟩

theorem OneLine.report (h : a.OneLine) : a.report.OneLine :=
  ⟨h.document.name, h.document.version, h.records⟩

end Audit

/-- **The lines of a report.** The plain text of a report consists of its headline, the lines of its
phases and its summary exactly if none of these holds a line feed; each line feed in one of them makes
a further line. Without line feeds in the texts that are shown there is a line for each record. -/
theorem report_lines (a : Audit) :
    (Text.rawLines (a.report.text .plain).toList = (a.report.lines .plain).map String.toList ↔
      ∀ line ∈ a.report.lines .plain, IsOneLine line) ∧
    (Text.rawLines (a.report.text .plain).toList).length =
      6 + (Phase.all.map fun phase => max 1 (a.report.phaseRecords phase).length).sum +
        ((a.report.lines .plain).map fun line => line.toList.count '\n').sum ∧
    (a.OneLine →
      Text.rawLines (a.report.text .plain).toList = (a.report.lines .plain).map String.toList ∧
      (Text.rawLines (a.report.text .plain).toList).length =
        6 + (Phase.all.map fun phase => max 1 (a.report.phaseRecords phase).length).sum) := by
  have hlength := Text.length_rawLines_linesText (a.report.lines .plain)
  rw [Report.length_lines] at hlength
  refine ⟨Text.rawLines_linesText_iff, hlength, fun h => ?_⟩
  have hlines := h.report.rawLines_text .plain
  exact ⟨hlines, by rw [hlines, List.length_map, Report.length_lines]⟩

/-- A map of one node, and an invariant with a rule about it. -/
def Document.withRule (rule : String) : Document where
  nodes := .ofList [("doc:guide", { loc := some "guide.md" })]
  invariants := [{ id := "paired", rule, scope := ["doc:guide"] }]

/-- An audit of that map in which the file is there. -/
def Audit.ofRule (rule : String) : Audit where
  sources := .ofList [(⟨"/p/guide.md"⟩, some "")]
  document := .withRule rule
  root := ⟨"/p"⟩

theorem rule_on_one_line :
    (Audit.ofRule "one\n").OneLine ∧
    (Text.rawLines ((Audit.ofRule "one\n").report.text .plain).toList).length =
      6 + (Phase.all.map fun phase =>
        max 1 ((Audit.ofRule "one\n").report.phaseRecords phase).length).sum := by
  have hempty : IsOneLine "" := .literal rfl
  have hid : IsOneLine "doc:guide" := .literal rfl
  have hloc : IsOneLine "guide.md" := .literal rfl
  have hrule : Text.trim "one\n" = "one" := by decide +kernel
  have hnode : NodeRecord.OneLine { loc := some "guide.md" } :=
    ⟨nofun, by simpa using Text.isOneLine_trim hloc, nofun, nofun, nofun⟩
  have hinvariant : InvariantRecord.OneLine
      { id := "paired", rule := "one\n", scope := ["doc:guide"] } :=
    ⟨.literal rfl, hrule ▸ .literal rfl, by simpa using hid, nofun⟩
  have hdocument : (Document.withRule "one\n").OneLine :=
    ⟨hempty, Text.isOneLine_trim hempty, .literal rfl, List.forall_mem_singleton.mpr ⟨hid, hnode⟩,
      nofun, nofun, List.forall_mem_singleton.mpr hinvariant⟩
  have haudit : (Audit.ofRule "one\n").OneLine := ⟨.literal rfl, hdocument⟩
  exact ⟨haudit, ((report_lines _).2.2 haudit).2⟩

/-- A rule that goes on behind a line feed makes a further line. -/
theorem rule_on_two_lines :
    (Text.rawLines ((Audit.ofRule "one\ntwo").report.text .plain).toList).length ≠
      6 + (Phase.all.map fun phase =>
        max 1 ((Audit.ofRule "one\ntwo").report.phaseRecords phase).length).sum := by
  have hrecords : (Audit.ofRule "one\ntwo").phaseRecords .invariants =
      [⟨.invariants, "paired", "scope", .warn, "manual review: one\ntwo", none, none⟩] := by
    decide +kernel
  have hline : "  WARN paired [scope] manual review: one\ntwo" ∈
      (Audit.ofRule "one\ntwo").report.lines .plain := by
    unfold Report.lines
    refine List.mem_append_left _ (List.mem_cons_of_mem _ (List.mem_flatMap.mpr
      ⟨.invariants, Phase.mem_all _, ?_⟩))
    unfold Report.phaseLines
    rw [Audit.report_phaseRecords, hrecords]
    exact List.mem_cons_of_mem _ (List.mem_singleton.mpr (by decide +kernel))
  have hfeed : '\n' ∈ "  WARN paired [scope] manual review: one\ntwo".toList := by simp
  intro hlength
  rw [Report.text, Text.length_rawLines_linesText, Report.length_lines, Nat.add_eq_left] at hlength
  have hnone := List.sum_eq_zero_iff_forall_eq_nat.mp hlength _ (List.mem_map_of_mem hline)
  exact List.count_eq_zero.mp hnone hfeed

end ContractAudit
