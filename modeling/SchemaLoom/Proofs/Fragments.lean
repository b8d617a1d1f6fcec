import SchemaLoom.Proofs.Nesting

/-!
# Fragments of separated text

A text that was put together from pieces with separators between them is cut into
the same pieces again, provided that no separator stands outside the parentheses and
quoted runs of a piece. The cutting looks for comments too, so the text must be one
that the removal of comments leaves as it is.
-/

namespace SchemaLoom.Ddl

open SchemaLoom.Text

/-- The mode of a scan that knows of quoted runs only. -/
def Mode.ofQuote : Option Char -> Mode
  | none => plain
  | some close => quoted close

/-- Behind a character outside of quotes and comments the mode is that of the quotes it opens. -/
theorem Mode.afterPlain_eq (c : Char) : afterPlain c = ofQuote (openAfter c) := by
  unfold afterPlain openAfter
  cases quoteClose? c <;> rfl

/-- Behind a character within quotes the mode is that of the quotes it leaves open. -/
theorem Mode.afterQuoted_eq (close c : Char) :
    afterQuoted close c = ofQuote (stillOpen close c) := by
  unfold afterQuoted stillOpen
  split <;> rfl

/-- A text that has no comment, given the quoted run it starts in. -/
def Uncommented (quote : Option Char) (text : List Char) : Prop :=
  replaceComments (Mode.ofQuote quote) text = text

namespace Uncommented

variable {quote : Option Char} {c close : Char} {text later : List Char}

theorem nil (quote : Option Char) : Uncommented quote [] := by
  cases quote <;> rfl

/-- Behind a character within quotes a text without comments has none. -/
theorem of_quoted_cons (uncommented : Uncommented (some close) (c :: text)) :
    Uncommented (stillOpen close c) text := by
  rw [Uncommented, Mode.ofQuote, replaceComments, Mode.afterQuoted_eq] at uncommented
  exact (List.cons.inj uncommented).2

/-- At the start of a text without comments none opens, and none opens behind. -/
theorem of_plain_cons (uncommented : Uncommented none (c :: text)) :
    opensComment c text = false ∧ Uncommented (openAfter c) text := by
  rw [Uncommented, Mode.ofQuote] at uncommented
  have ordinary : opensComment c text = false := by
    refine Bool.eq_false_iff.2 fun opens => ?_
    simp only [opensComment, Bool.or_eq_true, Bool.and_eq_true, beq_iff_eq,
      List.head?_eq_some_iff] at opens
    -- A comment begins here, and its first character would have become a space.
    rcases opens with ⟨rfl, later, rfl⟩ | ⟨rfl, later, rfl⟩
    · simp [replaceComments] at uncommented
    · simp [replaceComments] at uncommented
  rw [replaceComments_plain_cons ordinary, Mode.afterPlain_eq] at uncommented
  exact ⟨ordinary, (List.cons.inj uncommented).2⟩

/-- What follows a text that a scan crosses has no comment either. -/
theorem of_append {stops : Nat -> Char -> Bool} {depth ending : Nat}
    (crossed : depthAcross? stops quote depth text = some ending)
    (uncommented : Uncommented quote (text ++ later)) : Uncommented none later := by
  fun_induction depthAcross? stops quote depth text with
  | case1 => exact uncommented
  | case2 => cases crossed
  | case3 close depth c rest inductionHypothesis =>
      exact inductionHypothesis crossed uncommented.of_quoted_cons
  | case4 => cases crossed
  | case5 depth c rest _ inductionHypothesis =>
      exact inductionHypothesis crossed uncommented.of_plain_cons.2

end Uncommented

/-- A text in which neither a quoted run nor a comment begins. -/
def Ordinary (text : List Char) : Prop :=
  ∀ c ∈ text, quoteClose? c = none ∧ c ≠ '-' ∧ c ≠ '/'

instance (text : List Char) : Decidable (Ordinary text) :=
  List.decidableBAll (fun c => quoteClose? c = none ∧ c ≠ '-' ∧ c ≠ '/') text

/-- A blank has no meaning of its own. -/
theorem Ordinary.of_blank {c : Char} (blank : isBlank c) : Ordinary [c] := by
  intro d member
  obtain rfl : d = c := by simpa using member
  exact ⟨(ordinary_of_isBlank blank).1, ne_of_isBlank blank (by decide),
    ne_of_isBlank blank (by decide)⟩

/-- The removal of comments turns the first text into the second, whatever follows. -/
def Strips (text stripped : List Char) : Prop :=
  ∀ later, replaceComments .plain (text ++ later) = stripped ++ replaceComments .plain later

namespace Strips

variable {text stripped later laterStripped : List Char}

theorem nil : Strips [] [] := by
  intro later
  rfl

/-- Texts that are stripped one by one are stripped together. -/
theorem append (first : Strips text stripped) (second : Strips later laterStripped) :
    Strips (text ++ later) (stripped ++ laterStripped) := by
  intro rest
  rw [List.append_assoc, first, second, List.append_assoc]

/-- A character in front of which nothing changes is kept. -/
theorem cons {c : Char} (unquoted : quoteClose? c = none)
    (noComment : ∀ rest, opensComment c (text ++ rest) = false) (others : Strips text stripped) :
    Strips (c :: text) (c :: stripped) := by
  intro later
  rw [List.cons_append, replaceComments_plain_cons (noComment later), Mode.afterPlain, unquoted]
  exact congrArg _ (others later)

/-- A text in which nothing begins is kept. -/
theorem of_ordinary (ordinary : Ordinary text) : Strips text text := by
  induction text with
  | nil => exact .nil
  | cons c text inductionHypothesis =>
      obtain ⟨⟨unquoted, noDash, noSlash⟩, others⟩ := List.forall_mem_cons.1 ordinary
      exact .cons unquoted (fun rest => by simp [opensComment, noDash, noSlash])
        (inductionHypothesis others)

/-- A quoted run is kept whatever it holds. -/
theorem quoted {opening close : Char} (quotes : quoteClose? opening = some close)
    (inside : close ∉ text) :
    Strips (opening :: text ++ [close]) (opening :: text ++ [close]) := by
  intro later
  have noDash : opening ≠ '-' := by
    rintro rfl
    cases quotes
  have noSlash : opening ≠ '/' := by
    rintro rfl
    cases quotes
  have content : replaceComments (.quoted close) (text ++ [close] ++ later) =
      text ++ [close] ++ replaceComments .plain later := by
    induction text with
    | nil => simp [replaceComments, Mode.afterQuoted]
    | cons c text inductionHypothesis =>
        simp only [List.mem_cons, not_or] at inside
        rw [List.cons_append, List.cons_append, replaceComments, Mode.afterQuoted,
          if_neg (by simpa using Ne.symm inside.1), inductionHypothesis inside.2]
        rfl
  rw [List.cons_append, List.cons_append,
    replaceComments_plain_cons (by simp [opensComment, noDash, noSlash]), Mode.afterPlain, quotes]
  exact congrArg _ content

/-- A comment to the end of its line becomes a space. -/
theorem lineComment (oneLine : '\n' ∉ text) : Strips ('-' :: '-' :: text ++ ['\n']) [' '] := by
  intro later
  have content : replaceComments .lineComment (text ++ '\n' :: later) =
      replaceComments .plain later := by
    induction text with
    | nil => simp [replaceComments, Mode.afterLineComment]
    | cons c text inductionHypothesis =>
        simp only [List.mem_cons, not_or] at oneLine
        rw [List.cons_append, replaceComments, Mode.afterLineComment,
          if_neg (by simpa using Ne.symm oneLine.1), inductionHypothesis oneLine.2]
  simp only [List.cons_append, List.append_assoc, List.nil_append, replaceComments, content]

/-- A comment up to its closing mark becomes a space. -/
theorem blockComment (inside : ¬['*', '/'] <:+: text) :
    Strips ('/' :: '*' :: text ++ ['*', '/']) [' '] := by
  intro later
  have content : replaceComments .blockComment (text ++ '*' :: '/' :: later) =
      replaceComments .plain later := by
    induction text with
    | nil => simp [replaceComments]
    | cons c text inductionHypothesis =>
        have goesOn : closesComment c (text ++ '*' :: '/' :: later) = false := by
          refine Bool.eq_false_iff.2 fun closes => inside ?_
          simp only [closesComment, Bool.and_eq_true, beq_iff_eq] at closes
          obtain ⟨rfl, next⟩ := closes
          cases text with
          | nil => cases next
          | cons d text =>
              obtain rfl : d = '/' := by simpa using next
              exact ⟨[], text, rfl⟩
        have shorter : text <:+: c :: text := (List.suffix_cons c text).isInfix
        rw [List.cons_append, replaceComments_block_cons goesOn]
        exact inductionHypothesis fun later => inside (later.trans shorter)
  simp only [List.cons_append, List.append_assoc, List.nil_append, replaceComments, content]

/-- What strips to a text is that text without comments. -/
theorem stripComments_eq (strips : Strips text stripped) : stripComments text = stripped := by
  have whole := strips []
  have nothing : replaceComments .plain [] = [] := rfl
  rwa [nothing, List.append_nil, List.append_nil] at whole

/-- A text that strips to itself has no comments. -/
theorem uncommented (strips : Strips text text) : Uncommented none text :=
  strips.stripComments_eq

end Strips

/-- A separator outside of parentheses ends a piece, and any other character belongs to
the piece it stands in. -/
theorem cut_plain_cons {separator c : Char} {rest : List Char}
    (ordinary : opensComment c rest = false) (depth : Nat) :
    cut separator .plain depth (c :: rest) =
      if c == separator && depth == 0 then [] :: cut separator .plain 0 rest
      else consFirst c (cut separator (Mode.afterPlain c) (depthAfter depth c) rest) := by
  obtain ⟨noLine, noBlock⟩ := not_opens ordinary
  rw [cut]
  · exact noLine
  · exact noBlock

/-- A character of a quoted run stays in its piece. -/
theorem cut_quoted_cons (separator close : Char) (depth : Nat) (c : Char) (rest : List Char) :
    cut separator (Mode.ofQuote (some close)) depth (c :: rest) =
      consFirst c (cut separator (Mode.ofQuote (stillOpen close c)) depth rest) := by
  rw [Mode.ofQuote, cut, Mode.afterQuoted_eq]

/-- A character outside of quotes stays in its piece unless it separates pieces. -/
theorem cut_plain_of_ne {separator c : Char} {rest : List Char} {depth : Nat}
    (ordinary : opensComment c rest = false) (other : ¬ (c = separator ∧ depth = 0)) :
    cut separator (Mode.ofQuote none) depth (c :: rest) =
      consFirst c (cut separator (Mode.ofQuote (openAfter c)) (depthAfter depth c) rest) := by
  rw [Mode.ofQuote, cut_plain_cons ordinary, if_neg (by simpa using other), Mode.afterPlain_eq]

/-- A character outside of quotes that the scan of a fragment crosses stays in its piece. -/
theorem cut_plain_of_goesOn {separator c : Char} {rest : List Char} {depth : Nat}
    (ordinary : opensComment c rest = false)
    (goesOn : ¬ (stopsFragment separator depth c || (c == ')' && depth == 0)) = true) :
    cut separator (Mode.ofQuote none) depth (c :: rest) =
      consFirst c (cut separator (Mode.ofQuote (openAfter c)) (depthAfter depth c) rest) :=
  cut_plain_of_ne ordinary fun ⟨here, outermost⟩ =>
    goesOn (by simp [stopsFragment, here, outermost])

/-- A text without separators outside its parentheses and quoted runs goes into the
first piece of what follows. -/
theorem cut_append {separator : Char} {quote : Option Char} {depth ending : Nat}
    {text later : List Char}
    (crossed : depthAcross? (stopsFragment separator) quote depth text = some ending)
    (uncommented : Uncommented quote (text ++ later)) :
    cut separator (Mode.ofQuote quote) depth (text ++ later) =
      text.foldr consFirst (cut separator .plain ending later) := by
  fun_induction depthAcross? (stopsFragment separator) quote depth text with
  | case1 depth =>
      obtain rfl := Option.some.inj crossed
      rfl
  | case2 => cases crossed
  | case3 close depth c rest inductionHypothesis =>
      rw [List.cons_append, cut_quoted_cons,
        inductionHypothesis crossed uncommented.of_quoted_cons]
      rfl
  | case4 => cases crossed
  | case5 depth c rest goesOn inductionHypothesis =>
      rw [List.cons_append] at uncommented ⊢
      obtain ⟨ordinary, inside⟩ := uncommented.of_plain_cons
      rw [cut_plain_of_goesOn ordinary goesOn, inductionHypothesis crossed inside]
      rfl

/-- The beginning of a text that is not cut is not cut. -/
theorem cut_of_start {separator : Char} {quote : Option Char} {depth : Nat}
    {text later : List Char}
    (crossed : (depthAcross? (stopsFragment separator) quote depth (text ++ later)).isSome = true)
    (uncommented : Uncommented quote text) :
    cut separator (Mode.ofQuote quote) depth text = [text] := by
  induction text generalizing quote depth with
  | nil => cases quote <;> rfl
  | cons c text inductionHypothesis =>
      cases quote with
      | some close =>
          rw [cut_quoted_cons, inductionHypothesis crossed uncommented.of_quoted_cons]
          rfl
      | none =>
          obtain ⟨ordinary, inside⟩ := uncommented.of_plain_cons
          rw [List.cons_append, depthAcross?] at crossed
          split at crossed
          · cases crossed
          · rename_i goesOn
            rw [cut_plain_of_goesOn ordinary goesOn, inductionHypothesis crossed inside]
            rfl

/-- A text in front belongs to the first piece. -/
theorem foldr_consFirst (text piece : List Char) (pieces : List (List Char)) :
    text.foldr consFirst (piece :: pieces) = (text ++ piece) :: pieces := by
  induction text with
  | nil => rfl
  | cons c text inductionHypothesis => rw [List.foldr_cons, inductionHypothesis]; rfl

/-- Pieces of text with a separator between neighbours. -/
def separated (separator : Char) : List (List Char) -> List Char
  | [] => []
  | [piece] => piece
  | piece :: pieces => piece ++ separator :: separated separator pieces

/-- Between two pieces stands the separator. -/
theorem separated_cons_cons (separator : Char) (piece next : List Char)
    (pieces : List (List Char)) :
    separated separator (piece :: next :: pieces) =
      piece ++ separator :: separated separator (next :: pieces) :=
  rfl

/-- A character of separated pieces is a separator or belongs to a piece. -/
theorem mem_separated {separator c : Char} {pieces : List (List Char)}
    (member : c ∈ separated separator pieces) :
    c = separator ∨ ∃ piece ∈ pieces, c ∈ piece := by
  induction pieces with
  | nil => cases member
  | cons piece pieces inductionHypothesis =>
      cases pieces with
      | nil => exact .inr ⟨piece, List.mem_cons_self, member⟩
      | cons next pieces =>
          rw [separated_cons_cons, List.mem_append, List.mem_cons] at member
          rcases member with here | mark | later
          · exact .inr ⟨piece, List.mem_cons_self, here⟩
          · exact .inl mark
          · rcases inductionHypothesis later with mark | ⟨other, isOther, inside⟩
            · exact .inl mark
            · exact .inr ⟨other, List.mem_cons_of_mem piece isOther, inside⟩

/-- Separated pieces are crossed if each of them is and the scan does not stop at the
separator. -/
theorem depthAcross?_separated {stops : Nat -> Char -> Bool} {separator : Char} {depth : Nat}
    {pieces : List (List Char)} (noStop : stops depth separator = false)
    (ordinary : depthAfter depth separator = depth) (unquoted : openAfter separator = none)
    (notClosing : separator ≠ ')')
    (crossed : ∀ piece ∈ pieces, depthAcross? stops none depth piece = some depth) :
    depthAcross? stops none depth (separated separator pieces) = some depth := by
  induction pieces with
  | nil => rfl
  | cons piece pieces inductionHypothesis =>
      obtain ⟨first, others⟩ := List.forall_mem_cons.1 crossed
      cases pieces with
      | nil => exact first
      | cons next pieces =>
          rw [separated_cons_cons, depthAcross?_append first, depthAcross?,
            if_neg (by simp [noStop, notClosing]), ordinary, unquoted]
          exact inductionHypothesis others

/-- A body of undivided definitions is crossed. -/
theorem Undivided.separated_body {pieces : List (List Char)}
    (undivided : ∀ piece ∈ pieces, Undivided piece) :
    depthAcross? stopsBody none 0 (separated ',' pieces) = some 0 :=
  depthAcross?_separated rfl rfl rfl (by decide) fun piece member => (undivided piece member).body

/-- Undivided pieces stay in one definition when parentheses hold them together. -/
theorem Undivided.separated_enclosed {pieces : List (List Char)}
    (undivided : ∀ piece ∈ pieces, Undivided piece) :
    Undivided ('(' :: separated ',' pieces ++ [')']) :=
  depthAcross?_parentheses (depthAcross?_separated rfl rfl rfl (by decide)
    fun piece member => (undivided piece member).inside) rfl rfl

/-- Separated pieces have no comment if none of them has, whatever follows it. -/
theorem Strips.separated {separator : Char} {pieces : List (List Char)}
    (ordinary : Ordinary [separator])
    (strips : ∀ piece ∈ pieces, Strips piece piece) :
    Strips (separated separator pieces) (separated separator pieces) := by
  induction pieces with
  | nil => exact .nil
  | cons piece pieces inductionHypothesis =>
      obtain ⟨first, others⟩ := List.forall_mem_cons.1 strips
      cases pieces with
      | nil => exact first
      | cons next pieces =>
          have mark : Strips [separator] [separator] := .of_ordinary ordinary
          exact first.append (mark.append (inductionHypothesis others))

/-- Separated pieces are found again even if more is behind the last of them than a scan
crosses, as long as it is not cut. -/
theorem cut_separated_concat {separator : Char} {pieces : List (List Char)} {last : List Char}
    (unquoted : openAfter separator = none)
    (crossed : ∀ piece ∈ pieces, depthAcross? (stopsFragment separator) none 0 piece = some 0)
    (uncut : Uncommented none last → cut separator .plain 0 last = [last])
    (uncommented : Uncommented none (separated separator (pieces ++ [last]))) :
    cut separator .plain 0 (separated separator (pieces ++ [last])) = pieces ++ [last] := by
  induction pieces with
  | nil => exact uncut uncommented
  | cons piece pieces inductionHypothesis =>
      obtain ⟨first, others⟩ := List.forall_mem_cons.1 crossed
      have joined : separated separator (piece :: pieces ++ [last]) =
          piece ++ separator :: separated separator (pieces ++ [last]) := by
        cases pieces <;> rfl
      rw [joined] at uncommented ⊢
      obtain ⟨ordinary, later⟩ := (uncommented.of_append first).of_plain_cons
      rw [unquoted] at later
      refine (cut_append first uncommented).trans ?_
      rw [cut_plain_cons ordinary, if_pos (by simp), inductionHypothesis others later,
        foldr_consFirst, List.append_nil]
      rfl

/-- Separated pieces are found again. -/
theorem cut_separated {separator : Char} {pieces : List (List Char)}
    (nonempty : pieces ≠ []) (unquoted : openAfter separator = none)
    (crossed : ∀ piece ∈ pieces, depthAcross? (stopsFragment separator) none 0 piece = some 0)
    (uncommented : Uncommented none (separated separator pieces)) :
    cut separator .plain 0 (separated separator pieces) = pieces := by
  obtain ⟨others, last, rfl⟩ := (List.eq_nil_or_concat pieces).resolve_left nonempty
  rw [List.concat_eq_append] at *
  obtain ⟨first, final⟩ := List.forall_mem_append.1 crossed
  have whole : depthAcross? (stopsFragment separator) none 0 (last ++ []) = some 0 := by
    rw [List.append_nil, final last List.mem_cons_self]
  exact cut_separated_concat unquoted first (cut_of_start (Option.isSome_of_eq_some whole))
    uncommented

/-- The fragments of separated pieces are the pieces without the blanks around them. -/
theorem fragments_separated {separator : Char} {pieces : List (List Char)}
    (unquoted : openAfter separator = none)
    (crossed : ∀ piece ∈ pieces, depthAcross? (stopsFragment separator) none 0 piece = some 0)
    (uncommented : Uncommented none (separated separator pieces)) :
    fragments separator (separated separator pieces) =
      (pieces.map trim).filter fun piece => !piece.isEmpty := by
  cases pieces with
  | nil => rfl
  | cons piece pieces =>
      rw [fragments, cut_separated (List.cons_ne_nil piece pieces) unquoted crossed uncommented]

/-- The fragments of separated pieces that are solid texts among blanks. -/
theorem fragments_separated_solid {α : Type} {separator : Char} {items : List α}
    {whole text : α -> List Char} (unquoted : openAfter separator = none)
    (crossed : ∀ item ∈ items,
      depthAcross? (stopsFragment separator) none 0 (whole item) = some 0)
    (uncommented : Uncommented none (separated separator (items.map whole)))
    (nonempty : ∀ item ∈ items, text item ≠ [])
    (trimmed : ∀ item ∈ items, trim (whole item) = text item) :
    fragments separator (separated separator (items.map whole)) = items.map text := by
  have pieces : (items.map whole).map trim = items.map text := by
    rw [List.map_map]
    exact List.map_congr_left trimmed
  rw [fragments_separated unquoted (by simpa using crossed) uncommented, pieces]
  refine List.filter_eq_self.2 fun piece member => ?_
  obtain ⟨item, isItem, rfl⟩ := List.mem_map.1 member
  simpa using nonempty item isItem

end SchemaLoom.Ddl
