import ContractAudit.Proofs.Evidence.Tokens
import ContractAudit.Proofs.Pattern.Recasing
import ContractAudit.Proofs.Text.OneLine

/-!
# Evidence of routes

Four patterns are evidence of a route, and all of them ask for the same two things: the path in
quotes, as it stands, and the method up to case. So a text without either is no evidence, and a
path that goes on in front of its closing quote is another path (`not_hasQuoted_of_longer`). The
last two patterns ask for nothing else than that the method is a word of the line and does not
overlap the quoted path (`RouteInLine`), so no text with such a line is missed. How the method is
written is never of matter (`route_evidence`).
-/

namespace ContractAudit

namespace Text

/-! ## Quoted paths -/

/-- No quote is in the text. -/
def QuoteFree (s : List Char) : Prop := ∀ c ∈ s, c ∉ quoteMarks

instance (s : List Char) : Decidable (QuoteFree s) :=
  decidable_of_iff (s.all (!quoteMarks.contains ·) = true) (by simp [QuoteFree])

theorem quoteFree_append {s t : List Char} : QuoteFree (s ++ t) ↔ QuoteFree s ∧ QuoteFree t :=
  List.forall_mem_append

theorem countP_quoteMarks_eq_zero_iff {s : List Char} :
    s.countP (· ∈ quoteMarks) = 0 ↔ QuoteFree s := by
  simp [List.countP_eq_zero, QuoteFree]

/-- Up to a first quote there is one way to cut a text. -/
theorem eq_of_append_quote {before before' behind behind' : List Char} {q q' : Char}
    (h : before ++ q :: behind = before' ++ q' :: behind') (hbefore : QuoteFree before)
    (hbefore' : QuoteFree before') (hq : q ∈ quoteMarks) (hq' : q' ∈ quoteMarks) :
    before = before' ∧ behind = behind' := by
  have hfirst : ∀ {a b : List Char} {c : Char}, QuoteFree a → c ∈ quoteMarks →
      (a ++ c :: b).takeWhile (· ∉ quoteMarks) = a := by
    intro a b c ha hc
    rw [List.takeWhile_append_of_pos fun d hd => by simp [ha d hd],
      List.takeWhile_cons_of_neg (by simp [hc]), List.append_nil]
  have hsame : before = before' := by
    rw [← hfirst (b := behind) hbefore hq, h, hfirst hbefore' hq']
  subst hsame
  rw [List.append_cancel_left_eq, List.cons.injEq] at h
  exact ⟨rfl, h.2⟩

/-- Where the only two quotes are around a longer path, the path itself is not in quotes. -/
theorem not_hasQuoted_of_longer {path more before behind : List Char} {q r : Char}
    (hmore : more ≠ []) (hbefore : QuoteFree before) (hpath : QuoteFree (path ++ more))
    (hbehind : QuoteFree behind) (hq : q ∈ quoteMarks) (hr : r ∈ quoteMarks) :
    ¬ HasQuoted path (before ++ q :: (path ++ more ++ r :: behind)) := by
  rintro ⟨front, q', r', back, htext, hq', hr'⟩
  -- There are two quotes in all, so none is left for the text in front of the first.
  have hcount := congrArg (List.countP (· ∈ quoteMarks)) htext
  simp only [List.countP_append, List.countP_cons, countP_quoteMarks_eq_zero_iff.mpr hbefore,
    countP_quoteMarks_eq_zero_iff.mpr hbehind, hq, hr, hq', hr', decide_true, if_true] at hcount
  rw [← List.countP_append, countP_quoteMarks_eq_zero_iff.mpr hpath] at hcount
  have hfront : QuoteFree front := countP_quoteMarks_eq_zero_iff.mp (by omega)
  have hrest := (eq_of_append_quote htext hbefore hfront hq hq').2
  rw [List.append_assoc, List.append_cancel_left_eq] at hrest
  obtain ⟨c, tail, rfl⟩ := List.exists_cons_of_ne_nil hmore
  rw [List.cons_append, List.cons.injEq] at hrest
  obtain ⟨rfl, -⟩ := hrest
  exact hpath c (by simp) hr'

/-- A line has the method as a word, and in front of it or behind it the path in quotes. -/
structure RouteInLine (method path line : List Char) where
  before : List Char
  word : List Char
  behind : List Char
  line_eq : line = before ++ (word ++ behind)
  isMethod : SameUpToCase word method
  beginsWord : Pattern.isBoundary before.getLast? (word ++ behind).head? = true
  endsWord : Pattern.isBoundary (before ++ word).getLast? behind.head? = true
  isQuoted : HasQuoted path before ∨ HasQuoted path behind

end Text

open Text

namespace Pattern

variable {before s behind text line : List Char} {method path : String}

theorem occursIn_ignoringCase_literal_iff : (literal method).ignoringCase.OccursIn text ↔
    ∃ word, word <:+: text ∧ SameUpToCase word method.toList := by
  rw [occursIn_iff]
  simp only [MatchesAt, matchesBetween_ignoringCase_literal]
  constructor
  · rintro ⟨before, _, rfl, word, behind, rfl, hword⟩
    exact ⟨word, ⟨before, behind, List.append_assoc ..⟩, hword⟩
  · rintro ⟨word, ⟨before, behind, rfl⟩, hword⟩
    exact ⟨before, word ++ behind, List.append_assoc .., word, behind, rfl, hword⟩

/-! ## What all patterns of a route ask for -/

/-- All of them ask for the path in quotes. -/
theorem quoted_occursIn_of_route {p : Pattern} (hp : p ∈ Evidence.endpointPatterns method path)
    (h : p.OccursIn text) : (quoted path).OccursIn text := by
  simp only [Evidence.endpointPatterns, List.mem_cons, List.not_mem_nil, or_false] at hp
  rcases hp with rfl | rfl | rfl | rfl
  · exact occursIn_part [_, _, _, _, _] [] h
  · exact occursIn_part [_, _, _, _, _, _, _] [] h
  · exact occursIn_part [_, _, _, _] [] h
  · exact occursIn_part [] [_, _, _, _] h

/-- All of them ask for the method up to case. -/
theorem method_occursIn_of_route {p : Pattern} (hp : p ∈ Evidence.endpointPatterns method path)
    (h : p.OccursIn text) : (literal method).ignoringCase.OccursIn text := by
  simp only [Evidence.endpointPatterns, List.mem_cons, List.not_mem_nil, or_false] at hp
  rcases hp with rfl | rfl | rfl | rfl
  · exact occursIn_part [_] [_, _, _, _] h
  · exact occursIn_part [_] [_, _, _, _, _, _] h
  · exact occursIn_part [_] [_, _, _] h
  · exact occursIn_part [_, _, _] [_] h

/-! ## Routes in a line -/

theorem matchesBetween_sameLine :
    MatchesBetween before (.star (without [only '\n'])) s behind ↔ '\n' ∉ s := by
  have hset : ∀ {c}, (CharSet.ranges true [only '\n']).has false c = true ↔ c ≠ '\n' := by
    simp [CharSet.has, CharSet.rangeHas_only]
  unfold without
  simp only [matchesBetween_star_char, hset]
  exact ⟨fun h hnewline => h _ hnewline rfl, fun h c hc e => h (e ▸ hc)⟩

/-- The last two patterns find every route in a line. -/
theorem occursIn_of_routeInLine (h : RouteInLine method.toList path.toList line)
    (hline : '\n' ∉ line) :
    (methodThenPath method path).OccursIn line ∨ (pathThenMethod method path).OccursIn line := by
  obtain ⟨before, word, behind, rfl, hmethod, hbegins, hends, hquoted | hquoted⟩ := h
  · right
    obtain ⟨front, q, r, gap, rfl, hq, hr⟩ := hquoted
    have hgap : '\n' ∉ gap := by
      intro hnewline
      simp [hnewline] at hline
    unfold pathThenMethod quotedPath
    rw [occursIn_iff]
    simp only [matchesAt_seqAll_cons, matchesBetween_quoted, matchesBetween_sameLine,
      matchesBetween_wordBoundary, matchesBetween_ignoringCase_literal]
    exact ⟨front, q :: (path.toList ++ [r] ++ (gap ++ (word ++ behind))), by simp,
      q :: (path.toList ++ [r]), _, by simp, ⟨q, hq, r, hr, rfl⟩, gap, _, rfl, hgap, [], _, rfl,
      ⟨rfl, by simpa using hbegins⟩, word, _, rfl, hmethod, [], behind, rfl,
      ⟨rfl, by simpa using hends⟩, matchesAt_seqAll_nil⟩
  · left
    obtain ⟨gap, q, r, back, rfl, hq, hr⟩ := hquoted
    have hgap : '\n' ∉ gap := by
      intro hnewline
      simp [hnewline] at hline
    unfold methodThenPath quotedPath
    rw [occursIn_iff]
    simp only [matchesAt_seqAll_cons, matchesBetween_quoted, matchesBetween_sameLine,
      matchesBetween_wordBoundary, matchesBetween_ignoringCase_literal]
    exact ⟨before, _, rfl, [], _, rfl, ⟨rfl, hbegins⟩, word, _, rfl, hmethod, [], _, rfl,
      ⟨rfl, by simpa using hends⟩, gap, _, rfl, hgap, q :: (path.toList ++ [r]), back, by simp,
      ⟨q, hq, r, hr, rfl⟩, matchesAt_seqAll_nil⟩

end Pattern

namespace Evidence

variable {method method' path text : String}

theorem route_of_routeInLine {line : List Char} (hline : line ∈ rawLines text.toList)
    (h : RouteInLine method.toList path.toList line) :
    anyFound (endpointPatterns method path) text = true := by
  have hblock := isLineBlock_of_mem_rawLines hline
  rw [anyFound_iff]
  rcases Pattern.occursIn_of_routeInLine h (newline_notMem_of_mem_rawLines hline) with hocc | hocc
  · exact ⟨_, by simp [endpointPatterns], hocc.of_isLineBlock hblock⟩
  · exact ⟨_, by simp [endpointPatterns], hocc.of_isLineBlock hblock⟩

theorem route_variant (h : SameUpToCase method.toList method'.toList) :
    anyFound (endpointPatterns method' path) text =
      anyFound (endpointPatterns method path) text := by
  have hcall : (Pattern.routerCall method' path).found text.toList =
      (Pattern.routerCall method path).found text.toList :=
    Pattern.found_variant [_] [_, _, _, _] h
  have hannotation : (Pattern.routeAnnotation method' path).found text.toList =
      (Pattern.routeAnnotation method path).found text.toList :=
    Pattern.found_variant [_] [_, _, _, _, _, _] h
  have hbefore : (Pattern.methodThenPath method' path).found text.toList =
      (Pattern.methodThenPath method path).found text.toList :=
    Pattern.found_variant [_] [_, _, _] h
  have hbehind : (Pattern.pathThenMethod method' path).found text.toList =
      (Pattern.pathThenMethod method path).found text.toList :=
    Pattern.found_variant [_, _, _] [_] h
  unfold anyFound endpointPatterns
  simp only [List.any_cons, hcall, hannotation, hbefore, hbehind]

end Evidence

/-- **What is evidence of a route.** A text with evidence has the path straight between quotes, and
the method up to case. A text of which some line has the route is evidence. A case variant of the
method, such as any recasing of it, has the same evidence. And where the only quotes of a text are
around a path that goes on, nothing is evidence of the path itself. -/
theorem route_evidence (method path text : String) :
    (Evidence.anyFound (Evidence.endpointPatterns method path) text = true →
      HasQuoted path.toList text.toList ∧
        ∃ word, word <:+: text.toList ∧ SameUpToCase word method.toList) ∧
    (∀ line ∈ rawLines text.toList, RouteInLine method.toList path.toList line →
      Evidence.anyFound (Evidence.endpointPatterns method path) text = true) ∧
    (∀ method' : String, SameUpToCase method.toList method'.toList →
      Evidence.anyFound (Evidence.endpointPatterns method' path) text =
        Evidence.anyFound (Evidence.endpointPatterns method path) text) ∧
    (∀ (before more behind : List Char), ∀ q ∈ quoteMarks, ∀ r ∈ quoteMarks, more ≠ [] →
      QuoteFree (before ++ (path.toList ++ more) ++ behind) →
      text.toList = before ++ q :: (path.toList ++ more ++ r :: behind) →
        Evidence.anyFound (Evidence.endpointPatterns method path) text = false) := by
  have hquoted : Evidence.anyFound (Evidence.endpointPatterns method path) text = true →
      HasQuoted path.toList text.toList := by
    intro h
    obtain ⟨p, hp, hocc⟩ := Evidence.anyFound_iff.mp h
    exact Pattern.quoted_occursIn_iff.mp (Pattern.quoted_occursIn_of_route hp hocc)
  refine ⟨?_, ?_, ?_, ?_⟩
  · intro h
    refine ⟨hquoted h, ?_⟩
    obtain ⟨p, hp, hocc⟩ := Evidence.anyFound_iff.mp h
    exact Pattern.occursIn_ignoringCase_literal_iff.mp (Pattern.method_occursIn_of_route hp hocc)
  · intro line hline h
    exact Evidence.route_of_routeInLine hline h
  · intro method' h
    exact Evidence.route_variant h
  · intro before more behind q hq r hr hmore hfree htext
    rw [quoteFree_append, quoteFree_append] at hfree
    obtain ⟨⟨hbefore, hinside⟩, hbehind⟩ := hfree
    rw [← Bool.not_eq_true]
    intro h
    have hpath := hquoted h
    rw [htext] at hpath
    exact not_hasQuoted_of_longer hmore hbefore hinside hbehind hq hr hpath

/-- A router that lists tasks has the route, and one that shows a single task has not. -/
theorem route_of_all_tasks :
    let listing := "app.get('/api/tasks', list)"
    let showing := "app.get('/api/tasks/:id')"
    HasQuoted "/api/tasks".toList listing.toList ∧
      Evidence.anyFound (Evidence.endpointPatterns "GET" "/api/tasks") listing = true ∧
      Evidence.anyFound (Evidence.endpointPatterns "Get" "/api/tasks") listing = true ∧
      Evidence.anyFound (Evidence.endpointPatterns "GET" "/api/tasks") showing = false := by
  intro listing showing
  obtain ⟨hneeds, hlines, hvariants, -⟩ := route_evidence "GET" "/api/tasks" listing
  have hquoted : HasQuoted "/api/tasks".toList "('/api/tasks', list)".toList :=
    ⟨['('], '\'', '\'', ", list)".toList, by decide +kernel, by decide, by decide⟩
  have hfound : Evidence.anyFound (Evidence.endpointPatterns "GET" "/api/tasks") listing = true :=
    hlines listing.toList (by decide +kernel) {
      before := "app.".toList
      word := "get".toList
      behind := "('/api/tasks', list)".toList
      line_eq := by decide +kernel
      isMethod := by decide +kernel
      beginsWord := by decide +kernel
      endsWord := by decide +kernel
      isQuoted := Or.inr hquoted }
  refine ⟨(hneeds hfound).1, hfound, ?_, ?_⟩
  · rw [hvariants "Get" (by decide +kernel)]
    exact hfound
  · obtain ⟨-, -, -, hlonger⟩ := route_evidence "GET" "/api/tasks" showing
    exact hlonger "app.get(".toList "/:id".toList [')'] '\'' (by decide) '\'' (by decide)
      (by decide) (by decide +kernel) (by decide +kernel)

end ContractAudit
