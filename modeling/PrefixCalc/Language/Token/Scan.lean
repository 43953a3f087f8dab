/-
  From the bytes of a line to its tokens.  A parenthesis is a token of its own; the characters between
  parentheses and white space make up words, and each word is an operator, a number, a keyword or a
  name, judged in this order by its spelling.  The first word that is none of them rejects the line.
-/
import PrefixCalc.Language.Error
import PrefixCalc.Text.Blank
import PrefixCalc.Text.Letter
import PrefixCalc.Text.Cursor

namespace PrefixCalc

/-- The characters that end a word. -/
def isDelimiter (c : Char) : Bool := isBlank c || c == '(' || c == ')'

namespace Token

/-- The token that a word stands for.  A word has a first character, and what it is decides what the
    word can be, except that operators come before all else: a minus alone is one. -/
def ofWord (first : Char) (rest : List Char) : Except Error Token :=
  let word := String.ofList (first :: rest)
  match Operator.ofSymbol? word with
  | some op => .ok (.operator op)
  | none =>
    if first.isDigit || first == '-' then
      match readNumber (first :: rest) with
      | some x => .ok (.literal x)
      | none => .error (.invalidNumber word)
    else if isLetter first then
      match Keyword.ofName? word with
      | some k => .ok (.keyword k)
      | none => .ok (.name word)
    else .error (.unrecognizedWord word)

/-- The tokens that a reading head has still to deliver. -/
def scanFrom (c : Cursor Char) : Except Error (List Token) :=
  match _h : c.pop? with
  | none => .ok []
  | some (first, left) =>
    if isBlank first then scanFrom left
    else if first == '(' then do
      let ts ← scanFrom left
      return .openPar :: ts
    else if first == ')' then do
      let ts ← scanFrom left
      return .closePar :: ts
    else do
      let word := left.takeUntil isDelimiter
      let t ← ofWord first word.1
      let ts ← scanFrom word.2
      return t :: ts
termination_by c.contents.length
decreasing_by
  all_goals have := Cursor.length_contents_lt_of_pop? _h
  · exact this
  · exact this
  · exact this
  · exact Nat.lt_of_le_of_lt (Cursor.length_contents_takeUntil_le isDelimiter left) this

/-- The tokens of a line.  A blank line has none. -/
def scan (line : Bytes) : Except Error (List Token) := scanFrom (Cursor.ofList (Utf8.decode line))

end Token

/-- A text that is, white space around it apart, a single name.  It is a text of characters, whose
    bytes are those of a line. -/
def isName (s : String) : Bool :=
  match Token.scan (Utf8.ofString s) with
  | .ok [.name _] => true
  | _ => false

end PrefixCalc
