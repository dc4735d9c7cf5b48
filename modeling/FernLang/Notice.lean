import FernLang.Excerpt

/-!
Failures ready to be shown against their source. Some failures have no place in a source: they are
escapes, and whoever runs the program has to answer for them.
-/

namespace FernLang

structure Notice where
  message : String
  span : Span
  calls : List Span

/-- A failure that is not shown against a source: a number too long, a span that the source does
not reach, forms nested too deep, a row of expressions, a list or an object in place of a sign, or an
operation that has no answer. -/
inductive Escape where
  | numeral (error : Numeral.Error)
  | outOfRange (error : OutOfRange)
  | tooDeep
  | bareRow
  | compoundSign
  | misused (misuse : Misuse)
deriving DecidableEq

def Notice.render (notice : Notice) (source name : String) : Except OutOfRange String := do
  let report ← Excerpt.renderError notice.message notice.span source name
  if notice.calls.isEmpty then return report
  else return report ++ "\ncall stack:\n" ++ (← Excerpt.renderCalls notice.calls source name)

def Notice.report (notice : Notice) (source name : String) : Except Escape String :=
  match notice.render source name with
  | .ok report => .ok (report ++ "\n")
  | .error error => .error (.outOfRange error)

def ParseError.notice (error : ParseError) : Notice := ⟨error.complaint.message, error.span, []⟩

def SourceError.notice : SourceError → Except Escape Notice
  | .scan (.unexpected found index) => .ok ⟨unexpectedMessage found, .ofWidth index 1, []⟩
  | .scan (.numeral error) => .error (.numeral error)
  | .parse error => .ok error.notice
  | .tooDeep => .error .tooDeep
  | .misused misuse => .error (.misused misuse)

/-- Whether a source may become a program when more is written behind it. -/
def SourceError.isIncomplete : SourceError → Bool
  | .parse error => error.complaint.isIncomplete
  | .scan _ | .tooDeep | .misused _ => false

/-- The frame of the program itself is not shown. -/
def RuntimeError.notice (error : RuntimeError) : Notice :=
  ⟨error.cause.message, error.span, error.stack.tail.map (·.span)⟩

def Fault.notice : Fault → Except Escape Notice
  | .raised error => .ok error.notice
  | .numeral error => .error (.numeral error)
  | .bareRow => .error .bareRow
  | .compoundSign => .error .compoundSign
  | .outOfRoom => .error .tooDeep
  | .misused misuse => .error (.misused misuse)

end FernLang
