/-! Texts cut at a mark. -/

namespace FernLang.Text

def pieces (sign : Char) : List Char → List (List Char)
  | [] => [[]]
  | c :: text =>
      if c = sign then [] :: pieces sign text
      else match pieces sign text with
        | [] => [[c]]
        | piece :: rest => (c :: piece) :: rest

/-- Every line end as a newline: a carriage return ends a line, together with a newline after it. -/
def newlines : List Char → List Char
  | [] => []
  | '\r' :: '\n' :: text => '\n' :: newlines text
  | '\r' :: text => '\n' :: newlines text
  | c :: text => c :: newlines text

/-- The lines of a text that is read line by line: nothing after the last newline is no line. -/
def lines (text : List Char) : List (List Char) :=
  let found := pieces '\n' text
  if found.getLast? == some [] then found.dropLast else found

end FernLang.Text
