import SchemaLoom.Text.Letters
import SchemaLoom.Text.Word

/-!
# Phrases of keywords

A phrase is one or more keywords with blanks between them, in any case. Where a
phrase is searched for, whole words are meant: no word character stands before its
first letter or after its last.
-/

namespace SchemaLoom.Ddl

open SchemaLoom.Text

/-- Keywords in capitals, in order. -/
abbrev Phrase := List (List Char)

/-- The phrase of the given keywords. -/
def Phrase.ofWords (words : List String) : Phrase :=
  words.map String.toList

namespace Phrase

/-- What follows a phrase at the start of a text. -/
def drop? : Phrase -> List Char -> Option (List Char)
  | [], text => some text
  | [keyword], text => dropKeyword? keyword text
  | keyword :: phrase, text =>
      match (dropKeyword? keyword text).bind dropBlanks? with
      | none => none
      | some rest => drop? phrase rest

/-- What follows a phrase that is not continued by a word character. -/
def dropWhole? (phrase : Phrase) (text : List Char) : Option (List Char) :=
  (phrase.drop? text).filter fun rest => !startsInWord rest

/-- The ends of a text that begin with the phrase as whole words. The flag says
whether a word character stands before the text. -/
def occurrences (phrase : Phrase) : Bool -> List Char -> List (List Char)
  | _, [] => []
  | afterWord, c :: rest =>
      let later := occurrences phrase (isWordChar c) rest
      if !afterWord && (phrase.dropWhole? (c :: rest)).isSome then (c :: rest) :: later else later

/-- Whether the phrase stands as whole words somewhere in a text. -/
def occursIn (phrase : Phrase) (text : List Char) : Bool :=
  !(phrase.occurrences false text).isEmpty

/-- A phrase is taken from the front of a text. -/
theorem drop?_suffix {phrase : Phrase} {text rest : List Char}
    (found : phrase.drop? text = some rest) : rest <:+ text := by
  fun_induction drop? phrase text with
  | case1 => cases found; exact List.suffix_refl _
  | case2 text keyword => exact (dropKeyword?_suffix found).1
  | case3 => cases found
  | case4 _ _ _ _ _ before inductionHypothesis =>
      obtain ⟨middle, word, blanks⟩ := Option.bind_eq_some_iff.1 before
      exact (inductionHypothesis found).trans
        ((dropBlanks?_suffix blanks).trans (dropKeyword?_suffix word).1)

end Phrase

end SchemaLoom.Ddl
