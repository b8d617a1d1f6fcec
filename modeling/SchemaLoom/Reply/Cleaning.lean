import SchemaLoom.Text.Letters

/-!
# Cleaning replies

A reply often wraps what was asked for in markdown. Code fences go first, then lines
that are headings or bold from end to end, then surplus blank lines. Only a line
feed ends a line here.
-/

namespace SchemaLoom.Reply

open SchemaLoom.Text

/-- The marks of a code fence. -/
def fence : List Char :=
  List.replicate 3 '\x60'

/-- A text without the occurrences of a mark, found from left to right. If asked for,
a line break right after a mark goes with it. The number counts the characters still
to be left out. -/
def removeMarks (mark : List Char) (withBreak : Bool) : Nat -> List Char -> List Char
  | _, [] => []
  | skip + 1, _ :: rest => removeMarks mark withBreak skip rest
  | 0, c :: rest =>
      match dropStart? mark (c :: rest) with
      | none => c :: removeMarks mark withBreak 0 rest
      | some after =>
          let broken := withBreak && after.head? == some '\n'
          removeMarks mark withBreak (mark.length - 1 + (if broken then 1 else 0)) rest

/-- The lines of a text; there is one more than there are line feeds. -/
def splitLines : List Char -> List (List Char)
  | [] => [[]]
  | c :: rest =>
      if c == '\n' then [] :: splitLines rest
      else
        match splitLines rest with
        | [] => [[c]]
        | line :: lines => (c :: line) :: lines

/-- Lines put back together. -/
def joinLines : List (List Char) -> List Char
  | [] => []
  | [line] => line
  | line :: lines => line ++ '\n' :: joinLines lines

/-- Whether a line is bold from end to end: it has the marks of both ends. -/
def isBoldLine (line : List Char) : Bool :=
  4 ≤ line.length && startsWith ['*', '*'] line && endsWith ['*', '*'] line

/-- Whether a line is a heading. -/
def isHeadingLine (line : List Char) : Bool :=
  line.head? == some '#'

/-- A text with the lines of a kind emptied. -/
def blankLines (isSuch : List Char -> Bool) (text : List Char) : List Char :=
  joinLines ((splitLines text).map fun line => if isSuch line then [] else line)

/-- A run of blanks that begins with a line feed. With three or more line feeds, two
stand for all of them. -/
def squeeze (run : List Char) : List Char :=
  if 3 ≤ run.count '\n' then '\n' :: '\n' :: (run.reverse.takeWhile (· != '\n')).reverse
  else run

/-- A text without surplus blank lines. -/
def collapseBlankLines : List Char -> List Char
  | [] => []
  | c :: rest =>
      if c == '\n' then
        squeeze (c :: rest.takeWhile isBlank) ++ collapseBlankLines (rest.dropWhile isBlank)
      else c :: collapseBlankLines rest
termination_by text => text.length
decreasing_by
  · exact Nat.lt_succ_of_le (List.dropWhile_suffix isBlank).length_le
  · simp

/-- The statements in a reply. -/
def cleanDdl (reply : String) : String :=
  let unfenced :=
    removeMarks fence true 0 (removeMarks (fence ++ "sql".toList) true 0 reply.toList)
  let plain := blankLines isHeadingLine (blankLines isBoldLine (trim unfenced))
  String.ofList (collapseBlankLines plain)

/-- The JSON text in a reply. -/
def cleanJson (reply : String) : String :=
  String.ofList (trim
    (removeMarks fence false 0 (removeMarks (fence ++ "json".toList) false 0 reply.toList)))

end SchemaLoom.Reply
