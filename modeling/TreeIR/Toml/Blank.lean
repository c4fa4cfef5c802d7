/-
# TreeIR.Toml.Blank -- characters, blanks and line ends

A document is read from the front of a list of characters; a reader returns what is
left, or `none` where the text is not TOML.

A line ends with a line feed, a carriage return and line feed, or the text.  A comment
runs to the end of its line and holds no control characters but tabs.
-/

namespace TreeIR.Toml

set_option autoImplicit false

/-- What may stand in a comment and, quotes and backslash apart, in a string. -/
def isPrintable (c : Char) : Bool :=
  c == '\t' || (' ' ≤ c && c ≤ '~') || '\x80' ≤ c

def isBlank (c : Char) : Bool := c == ' ' || c == '\t'

def skipBlanks (text : List Char) : List Char := text.dropWhile isBlank

/-- What is left after a line end. -/
def lineEnd? : List Char → Option (List Char)
  | [] => some []
  | '\n' :: rest => some rest
  | '\r' :: '\n' :: rest => some rest
  | _ => none

/-- Skips blanks and a comment up to and over the line end. -/
def restOfLine? (text : List Char) : Option (List Char) :=
  match skipBlanks text with
  | '#' :: rest => lineEnd? (rest.dropWhile isPrintable)
  | rest => lineEnd? rest

/-- Skips blanks, comments and line ends, as between the items of an array. -/
def skipLines? (inComment : Bool) : List Char → Option (List Char)
  | [] => some []
  | '\r' :: '\n' :: rest => skipLines? false rest
  | c :: rest =>
      if c = '\n' then skipLines? false rest
      else if inComment then if isPrintable c then skipLines? true rest else none
      else if c = '#' then skipLines? true rest
      else if isBlank c then skipLines? false rest
      else some (c :: rest)

end TreeIR.Toml
