import SchemaLoom.Json.Basic
import SchemaLoom.Json.Reading

/-!
# Reading the text of a JSON value

Whatever layout a value without numbers is written in, reading the text gives back
the tree of the value, with every string intact. Strings are followed from escape to
character, and arrays and objects frame by frame.
-/

namespace SchemaLoom.Json

/-- A string as the lexer reads one without faults. -/
def Quoted.whole (text : String) : Quoted :=
  { pieces := text.toList.map .char, fault := none }

/-- The hexadecimal digits have the values that they are written for. -/
theorem hexValue?_hexDigit : ∀ digit < 16, Text.hexValue? (hexDigit digit) = some digit := by
  decide

/-- The escape by hexadecimal digits of a control character stands for it. -/
theorem Piece.ofHex?_escape {c : Char} (control : c.toNat < 0x20) :
    ofHex? '0' '0' (hexDigit (c.toNat / 16)) (hexDigit (c.toNat % 16)) = some (.char c) := by
  have zero : Text.hexValue? '0' = some 0 := by decide
  have value : ((0 * 16 + 0) * 16 + c.toNat / 16) * 16 + c.toNat % 16 = c.toNat := by omega
  simp only [ofHex?, zero, hexValue?_hexDigit _ (show c.toNat / 16 < 16 by omega),
    hexValue?_hexDigit _ (show c.toNat % 16 < 16 by omega), value, ofUnit]
  rw [if_neg (by simp; omega), Char.ofNat_toNat]

namespace Quoted

/-- What is neither a quote, a backslash nor a control character stands for itself. -/
theorem read_ordinary {c : Char} (notBackslash : c ≠ '\\') (notQuote : c ≠ '\x22')
    (visible : 0x20 ≤ c.toNat) (rest : List Char) :
    read (c :: rest) = ((read rest).1.cons (.char c), (read rest).2) := by
  have notControl : ¬c.toNat < 0x20 := by omega
  rw [read, if_neg (by simpa using notQuote), if_neg notControl]
  all_goals simp_all

/-- A letter behind a backslash stands for the character that it escapes. -/
theorem read_escaped {c : Char} (letter : Char) (notHex : letter ≠ 'u')
    (escaped : escapedChar? letter = some c) (rest : List Char) :
    read ('\\' :: letter :: rest) = ((read rest).1.cons (.char c), (read rest).2) := by
  rw [read, escaped]
  all_goals simp_all

/-- Four digits behind a backslash stand for the character with that number. -/
theorem read_hex {a b c d : Char} {piece : Piece} (escaped : Piece.ofHex? a b c d = some piece)
    (rest : List Char) :
    read ('\\' :: 'u' :: a :: b :: c :: d :: rest) =
      ((read rest).1.cons piece, (read rest).2) := by
  rw [read, escaped]

/-- An escaped character reads as the character. -/
theorem read_escape (c : Char) (rest : List Char) :
    read (escape c ++ rest) = ((read rest).1.cons (.char c), (read rest).2) := by
  by_cases quote : c = '\x22'
  · subst quote
    exact read_escaped '\x22' (by decide) (by decide) rest
  by_cases backslash : c = '\\'
  · subst backslash
    exact read_escaped '\\' (by decide) (by decide) rest
  by_cases backspace : c = '\x08'
  · subst backspace
    exact read_escaped 'b' (by decide) (by decide) rest
  by_cases formFeed : c = '\x0c'
  · subst formFeed
    exact read_escaped 'f' (by decide) (by decide) rest
  by_cases newLine : c = '\n'
  · subst newLine
    exact read_escaped 'n' (by decide) (by decide) rest
  by_cases carriageReturn : c = '\r'
  · subst carriageReturn
    exact read_escaped 'r' (by decide) (by decide) rest
  by_cases tab : c = '\t'
  · subst tab
    exact read_escaped 't' (by decide) (by decide) rest
  by_cases control : c.toNat < 0x20
  · have written : escape c =
        ['\\', 'u', '0', '0', hexDigit (c.toNat / 16), hexDigit (c.toNat % 16)] := by
      simp [escape, *]
    rw [written]
    exact read_hex (Piece.ofHex?_escape control) rest
  · have written : escape c = [c] := by simp [escape, *]
    rw [written]
    exact read_ordinary backslash quote (by omega) rest

/-- A string reads back from between its quotes, whatever characters it has. -/
theorem read_quote (text : String) (rest : List Char) :
    read (text.toList.flatMap escape ++ '\x22' :: rest) = (whole text, rest) := by
  have characters : ∀ letters : List Char, read (letters.flatMap escape ++ '\x22' :: rest) =
      ({ pieces := letters.map .char, fault := none }, rest) := by
    intro letters
    induction letters with
    | nil =>
        rw [List.flatMap_nil, List.nil_append, read]
        all_goals simp
    | cons c letters inductionHypothesis =>
        rw [List.flatMap_cons, List.append_assoc, read_escape, inductionHypothesis]
        rfl
  exact characters text.toList

/-- The text of a string read without faults is the string. -/
@[simp] theorem text_whole (text : String) : (whole text).text = .ok text := by
  have characters : ∀ letters : List Char, characters (letters.map .char) none = .ok letters := by
    intro letters
    induction letters with
    | nil => rfl
    | cons c letters inductionHypothesis =>
        rw [List.map_cons, characters, inductionHypothesis]
        rfl
  rw [Quoted.text, whole, characters]
  exact congrArg Except.ok text.ofList_toList

end Quoted

mutual

/-- The tree of a value without numbers. -/
def tree? : Json -> Option Tree
  | null => some .null
  | bool value => some (.bool value)
  | integer _ | decimal _ => none
  | string value => some (.string (Quoted.whole value))
  | array items => (itemTrees? items).map fun trees => .array trees none
  | object members => (memberTrees? members).map fun trees => .object trees none

/-- The trees of items. -/
def itemTrees? : List Json -> Option (List Tree)
  | [] => some []
  | item :: items => (tree? item).bind fun tree => (itemTrees? items).map (tree :: ·)

/-- The trees of members. -/
def memberTrees? : List (String × Json) -> Option (List (Quoted × Tree))
  | [] => some []
  | (name, value) :: members =>
      (tree? value).bind fun tree =>
        (memberTrees? members).map ((Quoted.whole name, tree) :: ·)

end

/-- Blanks between tokens are skipped. -/
theorem tokens_space {c : Char} (space : isSpace c) (rest : List Char) :
    tokens (c :: rest) = tokens rest := by
  rw [tokens, if_pos space]

/-- A token is read in front of the others, unless it is the last. -/
theorem tokens_read {c : Char} {rest remaining : List Char} {token : Token}
    (visible : isSpace c = false) (read : readToken c rest = (token, remaining))
    (goesOn : token.isLast = false) : tokens (c :: rest) = token :: tokens remaining := by
  rw [tokens, if_neg (by simp [visible]), read]
  simp [goesOn]

/-- A mark is a token of its own. -/
theorem tokens_punctuation {c : Char} {token : Token} (visible : isSpace c = false)
    (mark : punctuation? c = some token) (goesOn : token.isLast = false) (rest : List Char) :
    tokens (c :: rest) = token :: tokens rest :=
  tokens_read visible (by rw [readToken, mark]) goesOn

/-- A quoted text is one token, with the whole text in it. -/
theorem tokens_quote (text : String) (rest : List Char) :
    tokens (quote text ++ rest) = .string (Quoted.whole text) :: tokens rest := by
  have read := Quoted.read_quote text rest
  have shape : quote text ++ rest =
      '\x22' :: (text.toList.flatMap escape ++ '\x22' :: rest) := by simp [quote]
  rw [shape]
  refine tokens_read rfl ?_ rfl
  rw [readToken, show punctuation? '\x22' = none from rfl]
  simp [read]

/-- The word `true` is a token. -/
theorem tokens_true (rest : List Char) :
    tokens ("true".toList ++ rest) = .bool true :: tokens rest :=
  tokens_read rfl rfl rfl

/-- The word `false` is a token. -/
theorem tokens_false (rest : List Char) :
    tokens ("false".toList ++ rest) = .bool false :: tokens rest :=
  tokens_read rfl rfl rfl

/-- The word `null` is a token. -/
theorem tokens_null (rest : List Char) :
    tokens ("null".toList ++ rest) = .null :: tokens rest :=
  tokens_read rfl rfl rfl

/-- A line break of the layout adds no token, however deep its indentation is. -/
theorem tokens_lineBreak (layout : Layout) (level : Nat) (rest : List Char) :
    tokens (layout.lineBreak level ++ rest) = tokens rest := by
  have spaces : ∀ count : Nat, tokens (List.replicate count ' ' ++ rest) = tokens rest := by
    intro count
    induction count with
    | zero => rfl
    | succ count inductionHypothesis =>
        rw [List.replicate_succ, List.cons_append, tokens_space rfl, inductionHypothesis]
  cases layout with
  | compact => rfl
  | pretty => rw [Layout.lineBreak, List.cons_append, tokens_space rfl, spaces]

/-- A colon is a token in each layout. -/
theorem tokens_colon (layout : Layout) (rest : List Char) :
    tokens (layout.colon ++ rest) = .colon :: tokens rest := by
  have mark : ∀ after, tokens (':' :: after) = .colon :: tokens after :=
    tokens_punctuation rfl rfl rfl
  cases layout with
  | compact => exact mark rest
  | pretty =>
      rw [Layout.colon, List.cons_append, mark, List.cons_append, tokens_space rfl]
      rfl

/-- No value begins with the token that ends an array. -/
theorem tokens_write_ne_closeArray {value : Json} {tree : Tree} (shape : tree? value = some tree)
    (layout : Layout) (level : Nat) (rest : List Char) :
    ∃ token later, tokens (write layout level value ++ rest) = token :: later ∧
      token ≠ .closeArray := by
  cases value with
  | null => exact ⟨_, _, tokens_null rest, by simp⟩
  | bool value =>
      cases value with
      | true => exact ⟨_, _, tokens_true rest, by simp⟩
      | false => exact ⟨_, _, tokens_false rest, by simp⟩
  | integer value => cases shape
  | decimal value => cases shape
  | string value => exact ⟨_, _, tokens_quote value rest, by simp⟩
  | array items =>
      cases items <;>
        exact ⟨.openArray, _, tokens_punctuation (c := '[') rfl rfl rfl _, by simp⟩
  | object members =>
      cases members <;>
        exact ⟨.openObject, _, tokens_punctuation (c := '\x7b') rfl rfl rfl _, by simp⟩

namespace Tree

/-- The progress that the tokens of a text make. -/
def Progress.along (progress : Progress) (text : List Char) : Progress :=
  (tokens text).foldl Progress.step progress

namespace Progress

/-- Reading goes on behind a token with the step that the token makes. -/
theorem along_of_tokens {text rest : List Char} {token : Token}
    (read : tokens text = token :: tokens rest) (progress : Progress) :
    progress.along text = (progress.step token).along rest := by
  rw [along, read, List.foldl_cons]
  rfl

/-- A line break of the layout makes no step. -/
theorem along_lineBreak (progress : Progress) (layout : Layout) (level : Nat)
    (rest : List Char) : progress.along (layout.lineBreak level ++ rest) = progress.along rest := by
  rw [along, tokens_lineBreak]
  rfl

/-- A mark makes the step of its token. -/
theorem along_punctuation {c : Char} (token : Token) (visible : isSpace c = false)
    (mark : punctuation? c = some token) (goesOn : token.isLast = false) (progress : Progress)
    (rest : List Char) : progress.along (c :: rest) = (progress.step token).along rest :=
  along_of_tokens (tokens_punctuation visible mark goesOn rest) progress

/-- The first item of an array is read like any value within it. -/
theorem along_firstItem {value : Json} {tree : Tree} (shape : tree? value = some tree)
    (frames : List Frame) (layout : Layout) (level : Nat) (rest : List Char) :
    (firstItem frames).along (write layout level value ++ rest) =
      (Progress.value (.array [] :: frames)).along (write layout level value ++ rest) := by
  obtain ⟨token, later, read, notClosed⟩ := tokens_write_ne_closeArray shape layout level rest
  rw [along, along, read, List.foldl_cons, List.foldl_cons]
  have same : (firstItem frames).step token =
      (Progress.value (.array [] :: frames)).step token := by
    cases token <;> first | rfl | exact absurd rfl notClosed
  rw [same]

mutual

/-- The text of a value brings the progress from before the value to after it. -/
theorem along_write {json : Json} {tree : Tree} (shape : tree? json = some tree)
    (layout : Layout) (level : Nat) (frames : List Frame) (rest : List Char) :
    (value frames).along (write layout level json ++ rest) = (complete tree frames).along rest := by
  match json with
  | .null =>
      cases shape
      exact along_of_tokens (tokens_null rest) _
  | .bool true =>
      cases shape
      exact along_of_tokens (tokens_true rest) _
  | .bool false =>
      cases shape
      exact along_of_tokens (tokens_false rest) _
  | .string text =>
      cases shape
      exact along_of_tokens (tokens_quote text rest) _
  | .array [] =>
      cases shape
      exact (along_punctuation .openArray rfl rfl rfl _ _).trans
        (along_punctuation .closeArray rfl rfl rfl _ _)
  | .array (item :: items) =>
      obtain ⟨trees, items?, rfl⟩ := Option.map_eq_some_iff.1 shape
      obtain ⟨first, firstShape, others⟩ := Option.bind_eq_some_iff.1 items?
      obtain ⟨later, laterShape, rfl⟩ := Option.map_eq_some_iff.1 others
      have opened : ∀ text, (value frames).along ('[' :: text) = (firstItem frames).along text :=
        fun text => along_punctuation .openArray rfl rfl rfl _ text
      have closed : (afterItem frames (later.reverse ++ [first])).along (']' :: rest) =
          (complete (.array (later.reverse ++ [first]).reverse none) frames).along rest :=
        along_punctuation .closeArray rfl rfl rfl _ rest
      simp only [write, List.cons_append, List.append_assoc, List.nil_append]
      rw [opened, along_lineBreak, along_firstItem firstShape, along_write firstShape]
      change (afterItem frames [first]).along _ = _
      rw [along_writeItems laterShape, along_lineBreak, closed]
      simp
  | .object [] =>
      cases shape
      exact (along_punctuation .openObject rfl rfl rfl _ _).trans
        (along_punctuation .closeObject rfl rfl rfl _ _)
  | .object ((name, json) :: members) =>
      obtain ⟨trees, members?, rfl⟩ := Option.map_eq_some_iff.1 shape
      obtain ⟨first, firstShape, others⟩ := Option.bind_eq_some_iff.1 members?
      obtain ⟨later, laterShape, rfl⟩ := Option.map_eq_some_iff.1 others
      have opened : ∀ text, (value frames).along ('\x7b' :: text) = (firstName frames).along text :=
        fun text => along_punctuation .openObject rfl rfl rfl _ text
      have closed : (afterMember frames (later.reverse ++ [(Quoted.whole name, first)])).along
            ('\x7d' :: rest) =
          (complete (.object (later.reverse ++ [(Quoted.whole name, first)]).reverse none)
            frames).along rest :=
        along_punctuation .closeObject rfl rfl rfl _ rest
      simp only [write, List.cons_append, List.append_assoc, List.nil_append]
      rw [opened, along_lineBreak, along_of_tokens (tokens_quote ..),
        along_of_tokens (tokens_colon ..)]
      change (value (.object [] (Quoted.whole name) :: frames)).along _ = _
      rw [along_write firstShape]
      change (afterMember frames [(Quoted.whole name, first)]).along _ = _
      rw [along_writeMembers laterShape, along_lineBreak, closed]
      simp

/-- The text of the items after the first one brings the progress to their end. -/
theorem along_writeItems {items : List Json} {trees : List Tree}
    (shape : itemTrees? items = some trees) (layout : Layout) (level : Nat)
    (frames : List Frame) (before : List Tree) (rest : List Char) :
    (afterItem frames before).along (writeItems layout level items ++ rest) =
      (afterItem frames (trees.reverse ++ before)).along rest := by
  match items with
  | [] =>
      cases shape
      rfl
  | item :: items =>
      obtain ⟨first, firstShape, others⟩ := Option.bind_eq_some_iff.1 shape
      obtain ⟨later, laterShape, rfl⟩ := Option.map_eq_some_iff.1 others
      have comma : ∀ text, (afterItem frames before).along (',' :: text) =
          (value (.array before :: frames)).along text :=
        fun text => along_punctuation .comma rfl rfl rfl _ text
      simp only [writeItems, List.cons_append, List.append_assoc]
      rw [comma, along_lineBreak, along_write firstShape]
      change (afterItem frames (first :: before)).along _ = _
      rw [along_writeItems laterShape]
      simp

/-- The text of the members after the first one brings the progress to their end. -/
theorem along_writeMembers {members : List (String × Json)} {trees : List (Quoted × Tree)}
    (shape : memberTrees? members = some trees) (layout : Layout) (level : Nat)
    (frames : List Frame) (before : List (Quoted × Tree)) (rest : List Char) :
    (afterMember frames before).along (writeMembers layout level members ++ rest) =
      (afterMember frames (trees.reverse ++ before)).along rest := by
  match members with
  | [] =>
      cases shape
      rfl
  | (name, json) :: members =>
      obtain ⟨first, firstShape, others⟩ := Option.bind_eq_some_iff.1 shape
      obtain ⟨later, laterShape, rfl⟩ := Option.map_eq_some_iff.1 others
      have comma : ∀ text, (afterMember frames before).along (',' :: text) =
          (nextName frames before).along text :=
        fun text => along_punctuation .comma rfl rfl rfl _ text
      simp only [writeMembers, List.cons_append, List.append_assoc]
      rw [comma, along_lineBreak, along_of_tokens (tokens_quote ..),
        along_of_tokens (tokens_colon ..)]
      change (value (.object before (Quoted.whole name) :: frames)).along _ = _
      rw [along_write firstShape]
      change (afterMember frames ((Quoted.whole name, first) :: before)).along _ = _
      rw [along_writeMembers laterShape]
      simp

end

end Progress

end Tree

/-- The text of a value without numbers reads back as its tree, in either layout. -/
theorem Document.read_write {json : Json} {tree : Tree} (shape : tree? json = some tree)
    (layout : Layout) :
    Document.read (json.render layout).toList = { root := tree, trailing := false } := by
  have read : (tokens (write layout 0 json)).foldl Tree.Progress.step (.value []) =
      .finished tree false := by
    simpa [Tree.Progress.along, tokens, Tree.complete] using
      Tree.Progress.along_write shape layout 0 [] []
  rw [Document.read, render, String.toList_ofList, read]
  rfl

end SchemaLoom.Json
