import ContractAudit.Evidence.SourceFile
import ContractAudit.Pattern.Reading
import ContractAudit.Report.Basic

/-!
# Evidence as it is written

Evidence is written down in the notation of patterns, with the name in it escaped, and read before it
is looked for. For an edge a notation that could not be read would be a verdict of its own
(`SourceFile.evidence`), and for a node a record. The families that edges and nodes look for stand
here, and with them what tokens and events are written as.
-/

namespace ContractAudit

/-- The families of evidence that edges look for, each for a name. -/
inductive EdgeFamily where
  | call (method : String)
  | literal (event : String)
  | validation (schema : String)
  | access (table : String)
  deriving DecidableEq, Repr

/-- The notation of a pattern, and whether case makes no difference to it. -/
structure PatternNotation where
  anyCase : Bool := false
  text : List Char

namespace EdgeFamily

open Pattern

/-- The patterns that are searched for. -/
def patterns : EdgeFamily → List Pattern
  | .call method => Evidence.callPatterns method
  | .literal event => Evidence.quotedLiteralPatterns event
  | .validation schema => Evidence.validationPatterns schema
  | .access table => Evidence.tableAccessPatterns table

/-- How a family is written, pattern by pattern. The escaped name stands between two fixed texts. -/
def notations : EdgeFamily → List PatternNotation
  | .call method =>
    [{ text := "(?:^|[^A-Za-z0-9_$])".toList ++ (escape method.toList ++ "\\s*\\(".toList) }]
  | .literal event =>
    [{ text := "[\"'`]".toList ++ (escape event.toList ++ "[\"'`]".toList) }]
  | .validation schema =>
    [{ text := "(?:^|[^A-Za-z0-9_$])".toList ++ (escape schema.toList ++
        ("\\s*\\.\\s*(?:parse|safeParse|parseAsync|safeParseAsync|validate|validateSync|" ++
          "validateAsync|check|assert|decode|is)\\s*\\(").toList) },
      { text := "\\b(?:validate|parse|check|assert)[A-Za-z0-9_]*\\s*\\(\\s*".toList ++
        (escape schema.toList ++ "(?:[^A-Za-z0-9_$]|$)".toList) }]
  | .access table =>
    [{ anyCase := true
       text := ("\\b(?:insert\\s+(?:or\\s+[a-z]+\\s+)?into|update|delete\\s+from|" ++
          "replace\\s+into|merge\\s+into|upsert\\s+into|from|join|into)\\s+[`\"\\[]?").toList ++
        (escape table.toList ++ "[`\"\\]]?(?:[^A-Za-z0-9_]|$)".toList) },
      { text := "[\"'`](?:[^\"'`\\n]*[^A-Za-z0-9_\"'`\\n])?".toList ++
        (escape table.toList ++ "(?:[^A-Za-z0-9_\"'`\\n][^\"'`\\n]*)?[\"'`]".toList) }]

end EdgeFamily

namespace PatternNotation

/-- The patterns that notations stand for, if all of them make sense. -/
def compile (notations : List PatternNotation) : Option (List Pattern) :=
  notations.mapM fun n => Pattern.read n.anyCase n.text

/-- How a name is written that is looked for as a whole identifier. -/
def token (name : String) : PatternNotation :=
  { text := "(?:^|[^A-Za-z0-9_$])".toList ++
      (Pattern.escape name.toList ++ "(?:[^A-Za-z0-9_$]|$)".toList) }

/-- How an event is written: its name in quotes, or as a whole identifier. -/
def event (name : String) : List PatternNotation :=
  (EdgeFamily.literal name).notations ++ [token name]

end PatternNotation

/-- The families of evidence that nodes look for: for their own names, for a route, and for a table
that a foreign key refers to. -/
inductive NodeFamily where
  | type (name : String)
  | method (name : String)
  | table (name : String)
  | endpoint (verb path : String)
  | event (name : String)
  | reference (target : String)
  deriving DecidableEq, Repr

namespace NodeFamily

open Pattern

/-- The patterns that are searched for. -/
def patterns : NodeFamily → List Pattern
  | .type name => Evidence.typePatterns name
  | .method name => Evidence.methodPatterns name
  | .table name => Evidence.tablePatterns name
  | .endpoint verb path => Evidence.endpointPatterns verb path
  | .event name => Evidence.eventPatterns name
  | .reference target => Evidence.tableReferencePatterns target

/-- How a family is written, pattern by pattern, with the names escaped. -/
def notations : NodeFamily → List PatternNotation
  | .type name =>
    [{ text := ("\\b(?:type|interface|enum|struct|class|trait|record|typedef|protocol|union|" ++
          "object)\\s+").toList ++
        (escape name.toList ++ "(?:[^A-Za-z0-9_$]|$)".toList) },
      { text := "\\b(?:const|let|var|val|final)\\s+".toList ++
        (escape name.toList ++ "[A-Za-z0-9_$]*\\s*(?::[^=\\n]+)?=".toList) },
      { text := "^[ \\t]*".toList ++
        (escape name.toList ++ "[A-Za-z0-9_]*\\s*=[^=]".toList) }]
  | .method name =>
    [{ text := ("\\b(?:public|private|protected|internal|pub(?:\\([a-z]+\\))?)\\s+" ++
          "(?:[^\\n;=()\x7b\x7d]*?\\s)?").toList ++
        (escape name.toList ++ "\\s*(?:<[^>\\n]*>)?\\s*\\(".toList) },
      { text := "\\b(?:fn|def|func|function|fun|sub|method)\\s+".toList ++
        (escape name.toList ++ "\\s*(?:<[^>\\n]*>)?\\s*\\(".toList) },
      { text := "\\bfunc\\s*\\([^)\\n]*\\)\\s*".toList ++
        (escape name.toList ++ "\\s*\\(".toList) },
      { text := ("^[ \\t]*(?:(?:static|async|override|get|set|abstract|virtual|final|" ++
          "synchronized)\\s+)*").toList ++
        (escape name.toList ++ ("\\s*(?:<[^>\\n]*>)?\\s*\\([^)]*\\)\\s*" ++
          "(?:(?::[^\x7b\\n;]*)?\\\x7b|=>|:[^\x7b\\n;]+;)").toList) },
      { text := "(?:^|[^A-Za-z0-9_$])".toList ++
        (escape name.toList ++ ("\\s*[:=]\\s*(?:async\\s+)?(?:function\\b|" ++
          "\\([^)]*\\)\\s*(?::[^=\\n]+)?=>|[A-Za-z0-9_$]+\\s*=>)").toList) }]
  | .table name =>
    [{ anyCase := true
       text := "\\bcreate\\s+table\\s+(?:if\\s+not\\s+exists\\s+)?[`\"\\[]?".toList ++
        (escape name.toList ++ "[`\"\\]]?(?:[^A-Za-z0-9_]|$)".toList) }]
  | .endpoint verb path =>
    [{ text := "\\.(?i:".toList ++ (escape verb.toList ++ (")\\s*\\(\\s*[\"'`]".toList ++
        (escape path.toList ++ "[\"'`]".toList))) },
      { text := "@(?i:".toList ++ (escape verb.toList ++
        (")(?:Mapping)?\\s*\\(\\s*(?:(?:value|path)\\s*=\\s*)?[\"'`]".toList ++
          (escape path.toList ++ "[\"'`]".toList))) },
      { text := "\\b(?i:".toList ++ (escape verb.toList ++ (")\\b[^\\n]*?[\"'`]".toList ++
        (escape path.toList ++ "[\"'`]".toList))) },
      { text := "[\"'`]".toList ++ (escape path.toList ++ ("[\"'`][^\\n]*?\\b(?i:".toList ++
        (escape verb.toList ++ ")\\b".toList))) }]
  | .event name => PatternNotation.event name
  | .reference target => [{ PatternNotation.token target with anyCase := true }]

end NodeFamily

/-- The verdict on an edge by a family that is read first. If it cannot be read, that is the
verdict, with `fault` for the reason. -/
def SourceFile.evidence (f : SourceFile) (fault : String) (family : EdgeFamily) (found : String)
    (otherwise : Status × String) : Status × String :=
  match PatternNotation.compile family.notations with
  | some patterns => if Evidence.anyFound patterns f.text then (.pass, found) else otherwise
  | none => (.fail, "invalid pattern: " ++ fault)

end ContractAudit
