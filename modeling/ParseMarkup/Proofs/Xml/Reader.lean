import ParseMarkup.Proofs.Stream.Forest
import ParseMarkup.Proofs.Xml.Entity
import ParseMarkup.Proofs.Xml.Forest

/-!
# Reading XML text back

A reader for the text of elements, to see that the text tells them apart. A scanner goes over the
text once and cuts it into tags and the character data between them. A tag ends at the first `>`
that is outside quotes; entities are read in attribute values and in character data only.

The module introduces:

* `Xml.Mark`: what a scanner finds, a start tag with its attributes, an end tag or a text;
* `Xml.Scanner`: a scanner, one character at a time, and `Xml.scan`, the marks of a text;
* `Xml.eventsOf`: the events that marks stand for;
* `Item.Readable`: elements with names of letters, with either one text or elements in them.

The main statement is `Xml.eventsOf_scan`: the events of a readable element are read back from its
text, whatever its values and texts are.
-/

namespace ParseMarkup

namespace Xml

/-! ## Marks -/

/-- What a scanner finds in a text. -/
inductive Mark where
  /-- A start tag, and whether it closes itself. -/
  | start (name : String) (attrs : List (String × String)) (isEmpty : Bool)
  /-- An end tag. -/
  | stop
  /-- Character data, not empty. -/
  | text (s : String)
  /-- The declaration or a processing instruction. -/
  | other
  deriving DecidableEq, Repr

/-- The attributes of a tag that follow `outside`, and whether the tag closes itself. What is
between quotes and what is outside them take turns. -/
def readAttrs (outside : List Char) : List (List Char) → List (String × String) × Bool
  | value :: next :: rest =>
    let (attrs, isEmpty) := readAttrs next rest
    -- outside, there is a blank before the name and an equals sign after it
    ((String.ofList outside.tail.dropLast, String.ofList (unescape value)) :: attrs, isEmpty)
  | _ => ([], outside == ['/'])

/-- What a tag is, given what is before its first quote and the rest cut at the quotes. -/
def Mark.ofTag (head : List Char) (rest : List (List Char)) : Mark :=
  match head with
  | '/' :: _ => .stop
  | '?' :: _ => .other
  | _ =>
    let (attrs, isEmpty) := readAttrs (head.dropWhile Char.isAlpha) rest
    .start (String.ofList (head.takeWhile Char.isAlpha)) attrs isEmpty

/-! ## Scanning -/

/-- Where in a text a scanner stands. What it has read of a part is kept last first. -/
inductive ScanMode where
  /-- In character data. -/
  | text (cs : List Char)
  /-- In a tag, outside quotes, after some parts of the tag. -/
  | tag (parts : List (List Char)) (cs : List Char)
  /-- In a tag, inside quotes, after some parts of the tag. -/
  | quoted (parts : List (List Char)) (cs : List Char)
  deriving DecidableEq, Repr

/-- A scanner in the middle of a text. -/
structure Scanner where
  /-- The marks found so far, last first. -/
  marks : List Mark
  /-- Where it stands. -/
  mode : ScanMode
  deriving DecidableEq, Repr

namespace Scanner

/-- Add character data to the marks, unless there is none. -/
def pushText (marks : List Mark) (cs : List Char) : List Mark :=
  if cs.isEmpty then marks else .text (String.ofList (unescape cs.reverse)) :: marks

/-- Add a tag to the marks. Its parts are given last first. -/
def pushTag (marks : List Mark) (parts : List (List Char)) : List Mark :=
  match parts.reverse with
  | [] => marks
  | head :: rest => .ofTag head rest :: marks

/-- Read one character. -/
def step (s : Scanner) (c : Char) : Scanner :=
  match s.mode with
  | .text cs =>
    -- a `>` in character data ends nothing
    if c = '<' then ⟨pushText s.marks cs, .tag [] []⟩ else ⟨s.marks, .text (c :: cs)⟩
  | .tag parts cs =>
    if c = '"' then ⟨s.marks, .quoted (cs.reverse :: parts) []⟩
    else if c = '>' then ⟨pushTag s.marks (cs.reverse :: parts), .text []⟩
    else ⟨s.marks, .tag parts (c :: cs)⟩
  | .quoted parts cs =>
    -- neither does any bracket between quotes
    if c = '"' then ⟨s.marks, .tag (cs.reverse :: parts) []⟩
    else ⟨s.marks, .quoted parts (c :: cs)⟩

/-- Read characters in order. -/
def read (s : Scanner) (cs : List Char) : Scanner := cs.foldl step s

theorem read_append (s : Scanner) (first second : List Char) :
    s.read (first ++ second) = (s.read first).read second :=
  List.foldl_append

@[simp] theorem read_nil (s : Scanner) : s.read [] = s := rfl

@[simp] theorem read_cons (s : Scanner) (c : Char) (cs : List Char) :
    s.read (c :: cs) = (s.step c).read cs := rfl

variable (marks : List Mark) (parts : List (List Char))

@[simp] theorem step_text_open (cs : List Char) :
    (Scanner.mk marks (.text cs)).step '<' = ⟨pushText marks cs, .tag [] []⟩ := rfl

@[simp] theorem step_tag_quote (cs : List Char) :
    (Scanner.mk marks (.tag parts cs)).step '"' = ⟨marks, .quoted (cs.reverse :: parts) []⟩ := rfl

@[simp] theorem step_tag_close (cs : List Char) :
    (Scanner.mk marks (.tag parts cs)).step '>' =
      ⟨pushTag marks (cs.reverse :: parts), .text []⟩ := rfl

@[simp] theorem step_quoted_quote (cs : List Char) :
    (Scanner.mk marks (.quoted parts cs)).step '"' = ⟨marks, .tag (cs.reverse :: parts) []⟩ := rfl

/-- Character data is read up to the next tag. -/
theorem read_text {cs : List Char} (h : '<' ∉ cs) (before : List Char) :
    (Scanner.mk marks (.text before)).read cs = ⟨marks, .text (cs.reverse ++ before)⟩ := by
  induction cs generalizing before with
  | nil => rfl
  | cons c cs ih =>
    obtain ⟨hne, htail⟩ := List.ne_and_not_mem_of_not_mem_cons h
    have hstepped : (Scanner.mk marks (.text before)).step c = ⟨marks, .text (c :: before)⟩ :=
      if_neg (Ne.symm hne)
    rw [read_cons, hstepped, ih htail, List.reverse_cons, List.append_assoc, List.singleton_append]

/-- A tag is read up to the next quote or to its end. -/
theorem read_tag {cs : List Char} (hquote : '"' ∉ cs) (hclose : '>' ∉ cs) (before : List Char) :
    (Scanner.mk marks (.tag parts before)).read cs =
      ⟨marks, .tag parts (cs.reverse ++ before)⟩ := by
  induction cs generalizing before with
  | nil => rfl
  | cons c cs ih =>
    obtain ⟨hneQuote, hquoteTail⟩ := List.ne_and_not_mem_of_not_mem_cons hquote
    obtain ⟨hneClose, hcloseTail⟩ := List.ne_and_not_mem_of_not_mem_cons hclose
    have hstepped :
        (Scanner.mk marks (.tag parts before)).step c = ⟨marks, .tag parts (c :: before)⟩ := by
      simp only [step, if_neg (Ne.symm hneQuote), if_neg (Ne.symm hneClose)]
    rw [read_cons, hstepped, ih hquoteTail hcloseTail, List.reverse_cons, List.append_assoc,
      List.singleton_append]

/-- What is inside quotes is read up to the next quote. -/
theorem read_quoted {cs : List Char} (hquote : '"' ∉ cs) (before : List Char) :
    (Scanner.mk marks (.quoted parts before)).read cs =
      ⟨marks, .quoted parts (cs.reverse ++ before)⟩ := by
  induction cs generalizing before with
  | nil => rfl
  | cons c cs ih =>
    obtain ⟨hne, htail⟩ := List.ne_and_not_mem_of_not_mem_cons hquote
    have hstepped :
        (Scanner.mk marks (.quoted parts before)).step c = ⟨marks, .quoted parts (c :: before)⟩ :=
      if_neg (Ne.symm hne)
    rw [read_cons, hstepped, ih htail, List.reverse_cons, List.append_assoc, List.singleton_append]

end Scanner

/-- The marks of a text that ends with a tag. -/
def scan (cs : List Char) : Option (List Mark) :=
  match (Scanner.mk [] (.text [])).read cs with
  | ⟨marks, .text []⟩ => some marks.reverse
  | _ => none

/-! ## From marks to events -/

/-- The events that marks stand for. A start tag and an end tag with nothing in between hold an
empty text, since an element without content closes its tag itself. -/
def eventsOf : List Mark → List Event
  | [] => []
  | .start name attrs true :: rest =>
    .startElement name :: attrEvents attrs ++ .endElement :: eventsOf rest
  | .start name attrs false :: .stop :: rest =>
    .startElement name :: attrEvents attrs ++ .characters "" :: .endElement :: eventsOf rest
  | .start name attrs false :: rest => .startElement name :: attrEvents attrs ++ eventsOf rest
  | .stop :: rest => .endElement :: eventsOf rest
  | .text s :: rest => .characters s :: eventsOf rest
  | .other :: rest => eventsOf rest

/-! ## Readable elements -/

/-- Whether a name consists of letters. -/
def isWord (s : String) : Bool := !s.toList.isEmpty && s.toList.all Char.isAlpha

theorem isAlpha_of_isWord {s : String} (h : isWord s = true) :
    ∀ c ∈ s.toList, c.isAlpha = true := by
  rw [isWord, Bool.and_eq_true] at h
  exact List.all_eq_true.1 h.2

/-- A character that is no letter is not in a word. -/
theorem not_mem_of_isWord {s : String} (h : isWord s = true) {c : Char}
    (hother : c.isAlpha = false) : c ∉ s.toList := by
  intro hmem
  rw [isAlpha_of_isWord h c hmem] at hother
  cases hother

/-- The names in a start tag. -/
def tagNames (name : String) (attrs : List (String × String)) : List String :=
  name :: attrs.map Prod.fst

/-- If the names in a start tag are words, so are the name of the element and those of its
attributes. -/
theorem isWord_of_all_tagNames {name : String} {attrs : List (String × String)}
    (h : (tagNames name attrs).all isWord = true) :
    isWord name = true ∧ ∀ a ∈ attrs, isWord a.1 = true := by
  rwa [tagNames, List.all_cons, Bool.and_eq_true, List.all_map, List.all_eq_true] at h

end Xml

namespace Item

open Xml

/-- An element that a reader understands: names consist of letters, and it holds either one text or
elements. -/
inductive Readable : Item → Prop where
  | holdingText {name : String} {attrs : List (String × String)} (s : String)
      (hnames : (tagNames name attrs).all isWord = true) :
      Readable (.element name attrs [.text s])
  | holdingElements {name : String} {attrs : List (String × String)} {content : List Item}
      (hnames : (tagNames name attrs).all isWord = true) (hreadable : ∀ i ∈ content, Readable i) :
      Readable (.element name attrs content)

mutual

/-- The marks in the text of an item. -/
def marks : Item → List Mark
  | text s => if s.isEmpty then [] else [.text s]
  | instruction _ _ => [.other]
  | element name attrs [] => [.start name attrs true]
  | element name attrs (i :: is) => .start name attrs false :: (marksAll (i :: is) ++ [.stop])

/-- The marks in the text of several items. -/
def marksAll : List Item → List Mark
  | [] => []
  | i :: is => marks i ++ marksAll is

end

/-- The text of a readable element begins with its start tag. -/
theorem Readable.exists_marks {i : Item} (h : i.Readable) :
    ∃ name attrs isEmpty rest, i.marks = .start name attrs isEmpty :: rest := by
  cases h with
  | holdingText s hnames => exact ⟨_, _, _, _, by rw [marks]⟩
  | @holdingElements name attrs content hnames hreadable =>
    cases content with
    | nil => exact ⟨_, _, _, _, by rw [marks]⟩
    | cons i is => exact ⟨_, _, _, _, by rw [marks]⟩

end Item

namespace Xml

/-! ## Events are read from the marks -/

/-- A start tag that its end does not follow at once gives the events of an element with
content. -/
theorem eventsOf_start {name : String} {attrs : List (String × String)} {marks : List Mark}
    (h : marks.head? ≠ some .stop) :
    eventsOf (.start name attrs false :: marks) =
      .startElement name :: attrEvents attrs ++ eventsOf marks := by
  cases marks with
  | nil => rfl
  | cons mark marks =>
    cases mark with
    | stop => exact absurd rfl h
    | _ => rfl

/-- If each of several items is read from its marks, so are all of them together. -/
theorem eventsOf_marksAll_append {is : List Item}
    (h : ∀ i ∈ is, ∀ rest, eventsOf (i.marks ++ rest) = i.events ++ eventsOf rest)
    (rest : List Mark) :
    eventsOf (Item.marksAll is ++ rest) = Item.eventsAll is ++ eventsOf rest := by
  induction is with
  | nil => rfl
  | cons i is ih =>
    have hfirst := h i (List.mem_cons_self ..)
    have hothers := ih fun j hmem => h j (List.mem_cons_of_mem i hmem)
    rw [Item.marksAll, Item.eventsAll, List.append_assoc, hfirst, hothers, List.append_assoc]

/-- The events of a readable element are read from its marks. -/
theorem eventsOf_marks_append {i : Item} (h : i.Readable) (rest : List Mark) :
    eventsOf (i.marks ++ rest) = i.events ++ eventsOf rest := by
  -- the marks of an element do not tell where it ends, so the claim is for any marks after it
  induction h generalizing rest with
  | @holdingText name attrs s hnames =>
    -- an empty text leaves no mark, so the two tags follow each other
    by_cases hempty : s = ""
    · subst hempty
      simp [Item.marks, Item.marksAll, eventsOf, Item.events, Item.eventsAll]
    · simp [Item.marks, Item.marksAll, hempty, eventsOf, Item.events, Item.eventsAll]
  | @holdingElements name attrs content hnames hreadable ih =>
    cases content with
    | nil => simp [Item.marks, eventsOf, Item.events, Item.eventsAll]
    | cons i is =>
      -- the content begins with a start tag, so the element is not taken for one with empty text
      obtain ⟨_, _, _, _, hfirst⟩ := (hreadable i (List.mem_cons_self ..)).exists_marks
      have hstarts : (Item.marksAll (i :: is) ++ .stop :: rest).head? ≠ some .stop := by
        simp [Item.marksAll, hfirst]
      rw [Item.marks, List.cons_append, List.append_assoc, List.singleton_append,
        eventsOf_start hstarts, eventsOf_marksAll_append ih, eventsOf, Item.events]
      simp

/-! ## Marks are read from the text -/

/-- What the text of attributes looks like to a scanner: the part of it up to the first quote, and
the parts after that. The tag is closed by `last`. -/
def attrParts (last : List Char) : List (String × String) → List Char × List (List Char)
  | [] => (last, [])
  | (name, value) :: attrs =>
    (' ' :: (name.toList ++ ['=']),
      (escape value).toList :: (attrParts last attrs).1 :: (attrParts last attrs).2)

/-- Attributes are read from their parts. -/
theorem readAttrs_attrParts (last : List Char) (attrs : List (String × String)) :
    readAttrs (attrParts last attrs).1 (attrParts last attrs).2 = (attrs, last == ['/']) := by
  induction attrs with
  | nil => rfl
  | cons a attrs ih =>
    obtain ⟨name, value⟩ := a
    rw [attrParts, readAttrs, ih]
    simp [unescape_toList_escape]

/-- What is read before the first attribute does not begin with a letter. -/
theorem isAlpha_head_attrParts {last : List Char} (h : ∀ c ∈ last.head?, c.isAlpha = false)
    (attrs : List (String × String)) : ∀ c ∈ (attrParts last attrs).1.head?, c.isAlpha = false := by
  cases attrs with
  | nil => exact h
  | cons a attrs =>
    obtain ⟨name, value⟩ := a
    intro c hmem
    have heq : c = ' ' := by simpa [attrParts, eq_comm] using hmem
    rw [heq]
    rfl

/-- A tag that begins with a letter is a start tag. -/
theorem ofTag_of_isAlpha {head : List Char} (h : ∃ c ∈ head.head?, c.isAlpha = true)
    (rest : List (List Char)) :
    Mark.ofTag head rest =
      .start (String.ofList (head.takeWhile Char.isAlpha))
        (readAttrs (head.dropWhile Char.isAlpha) rest).1
        (readAttrs (head.dropWhile Char.isAlpha) rest).2 := by
  obtain ⟨c, hmem, hletter⟩ := h
  unfold Mark.ofTag
  split
  · cases hmem
    cases hletter
  · cases hmem
    cases hletter
  · rfl

/-- A start tag is understood from its parts. -/
theorem ofTag_attrParts {name : String} (h : isWord name = true) {last : List Char}
    (hother : ∀ c ∈ last.head?, c.isAlpha = false) (attrs : List (String × String)) :
    Mark.ofTag (name.toList ++ (attrParts last attrs).1) (attrParts last attrs).2 =
      .start name attrs (last == ['/']) := by
  have hletters := isAlpha_of_isWord h
  have hbegins := isAlpha_head_attrParts hother attrs
  have hstarts : ∃ c ∈ (name.toList ++ (attrParts last attrs).1).head?, c.isAlpha = true := by
    cases hchars : name.toList with
    | nil => simp [isWord, hchars] at h
    | cons c cs => exact ⟨c, rfl, hletters c (hchars ▸ List.mem_cons_self ..)⟩
  -- what follows the name begins with a blank or a slash, so the name ends where it should
  have htaken : (attrParts last attrs).1.takeWhile Char.isAlpha = [] := by
    cases hchars : (attrParts last attrs).1 with
    | nil => rfl
    | cons c cs => simp [hbegins c (by rw [hchars]; rfl)]
  have hdropped : (attrParts last attrs).1.dropWhile Char.isAlpha = (attrParts last attrs).1 := by
    cases hchars : (attrParts last attrs).1 with
    | nil => rfl
    | cons c cs => simp [hbegins c (by rw [hchars]; rfl)]
  rw [ofTag_of_isAlpha hstarts, List.takeWhile_append_of_pos hletters,
    List.dropWhile_append_of_pos hletters, htaken, hdropped, readAttrs_attrParts, List.append_nil,
    String.ofList_toList]

namespace Scanner

/-- Attributes are read part by part, a quoted value after each name. -/
theorem read_tagAttrs (marks : List Mark) {last : List Char} (hquote : '"' ∉ last)
    (hclose : '>' ∉ last) (rest : List Char) {attrs : List (String × String)}
    (hnames : ∀ a ∈ attrs, isWord a.1 = true) (parts : List (List Char)) (before : List Char) :
    (Scanner.mk marks (.tag parts before)).read
        ((tagAttrs escape attrs).toList ++ (last ++ '>' :: rest)) =
      (Scanner.mk (pushTag marks (((before.reverse ++ (attrParts last attrs).1) ::
        (attrParts last attrs).2).reverse ++ parts)) (.text [])).read rest := by
  induction attrs generalizing parts before with
  | nil =>
    rw [tagAttrs, attrParts, String.toList_empty, List.nil_append, read_append,
      read_tag _ _ hquote hclose, read_cons, step_tag_close]
    simp
  | cons a attrs ih =>
    obtain ⟨name, value⟩ := a
    have hword : isWord name = true := hnames _ (List.mem_cons_self ..)
    have hheadQuote : '"' ∉ ' ' :: (name.toList ++ ['=']) := by
      simp [not_mem_of_isWord hword]
    have hheadClose : '>' ∉ ' ' :: (name.toList ++ ['=']) := by
      simp [not_mem_of_isWord hword]
    -- the value holds no quote, whatever it was before it was escaped
    have hvalueQuote : '"' ∉ (escape value).toList :=
      not_mem_escape_of_special (by decide) (by decide) value
    have hsplit : (tagAttrs escape ((name, value) :: attrs)).toList ++ (last ++ '>' :: rest) =
        (' ' :: (name.toList ++ ['='])) ++ ('"' :: ((escape value).toList ++ '"' ::
          ((tagAttrs escape attrs).toList ++ (last ++ '>' :: rest)))) := by
      simp [tagAttrs]
    rw [hsplit, read_append, read_tag _ _ hheadQuote hheadClose, read_cons, step_tag_quote,
      read_append, read_quoted _ _ hvalueQuote, read_cons, step_quoted_quote,
      ih fun a hmem => hnames a (List.mem_cons_of_mem _ hmem)]
    simp [attrParts]

/-- What stands before the end of a start tag that closes itself, or does not. -/
def closing (isEmpty : Bool) : List Char := if isEmpty then ['/'] else []

/-- A start tag is read as a whole, after the text before it. -/
theorem read_startTag (marks : List Mark) (cs : List Char) {name : String}
    {attrs : List (String × String)} (hnames : (tagNames name attrs).all isWord = true)
    (isEmpty : Bool) (rest : List Char) :
    (Scanner.mk marks (.text cs)).read ('<' :: (name.toList ++ ((tagAttrs escape attrs).toList ++
        (closing isEmpty ++ '>' :: rest)))) =
      (Scanner.mk (.start name attrs isEmpty :: pushText marks cs) (.text [])).read rest := by
  obtain ⟨hnameWord, hattrWords⟩ := isWord_of_all_tagNames hnames
  have hquote : '"' ∉ closing isEmpty := by cases isEmpty <;> decide
  have hclose : '>' ∉ closing isEmpty := by cases isEmpty <;> decide
  have hother : ∀ c ∈ (closing isEmpty).head?, c.isAlpha = false := by
    cases isEmpty <;> simp [closing]
  have hcloses : (closing isEmpty == ['/']) = isEmpty := by cases isEmpty <;> rfl
  have hunderstood := ofTag_attrParts hnameWord hother attrs
  rw [hcloses] at hunderstood
  rw [read_cons, step_text_open, read_append,
    read_tag _ _ (not_mem_of_isWord hnameWord rfl) (not_mem_of_isWord hnameWord rfl),
    read_tagAttrs _ hquote hclose rest hattrWords]
  simp [pushTag, hunderstood]

/-- An end tag is read as a whole, after the text before it. -/
theorem read_endTag (marks : List Mark) (cs : List Char) {name : String}
    (hword : isWord name = true) (rest : List Char) :
    (Scanner.mk marks (.text cs)).read ('<' :: '/' :: (name.toList ++ '>' :: rest)) =
      (Scanner.mk (.stop :: pushText marks cs) (.text [])).read rest := by
  have hquote : '"' ∉ '/' :: name.toList := by simp [not_mem_of_isWord hword]
  have hclose : '>' ∉ '/' :: name.toList := by simp [not_mem_of_isWord hword]
  rw [read_cons, step_text_open, ← List.cons_append, read_append, read_tag _ _ hquote hclose,
    read_cons, step_tag_close]
  simp [pushTag, Mark.ofTag]

/-- The text of an element's content is kept, unless it is empty. -/
theorem pushText_escape (marks : List Mark) (s : String) :
    pushText marks (escape s).toList.reverse = (Item.text s).marks.reverse ++ marks := by
  have hunescaped := unescape_toList_escape s
  by_cases hempty : s = ""
  · subst hempty
    rfl
  · -- a text that is not empty is not escaped to an empty one, or it could not be read back
    have hnonempty : (escape s).toList ≠ [] := by
      intro heq
      rw [heq] at hunescaped
      exact hempty (String.toList_eq_nil_iff.1 hunescaped.symm)
    simp [pushText, Item.marks, hempty, hunescaped, hnonempty]

/-- If each of several items is scanned whole, so are all of them together. -/
theorem read_xmlAll {is : List Item}
    (h : ∀ i ∈ is, ∀ marks, (Scanner.mk marks (.text [])).read i.xml.toList =
      ⟨i.marks.reverse ++ marks, .text []⟩) (marks : List Mark) :
    (Scanner.mk marks (.text [])).read (Item.xmlAll is).toList =
      ⟨(Item.marksAll is).reverse ++ marks, .text []⟩ := by
  induction is generalizing marks with
  | nil => rfl
  | cons i is ih =>
    have hfirst := h i (List.mem_cons_self ..) marks
    have hothers := ih fun j hmem => h j (List.mem_cons_of_mem i hmem)
    rw [Item.xmlAll, String.toList_append, read_append, hfirst, hothers, Item.marksAll,
      List.reverse_append, List.append_assoc]

/-- A readable element is scanned whole, and its marks are found. -/
theorem read_xml {i : Item} (h : i.Readable) (marks : List Mark) :
    (Scanner.mk marks (.text [])).read i.xml.toList = ⟨i.marks.reverse ++ marks, .text []⟩ := by
  induction h generalizing marks with
  | @holdingText name attrs s hnames =>
    -- the text is read up to the end tag, since no `<` is left in it
    have hword := (isWord_of_all_tagNames hnames).1
    have hsplit : (Item.element name attrs [.text s]).xml.toList =
        '<' :: (name.toList ++ ((tagAttrs escape attrs).toList ++ (closing false ++ '>' ::
          ((escape s).toList ++ '<' :: '/' :: (name.toList ++ ['>']))))) := by
      simp [Item.xml, Item.xmlAll, closing]
    have htextFree : '<' ∉ (escape s).toList :=
      not_mem_escape_of_special (by decide) (by decide) s
    rw [hsplit, read_startTag _ _ hnames, read_append, read_text _ htextFree, read_endTag _ _ hword,
      List.append_nil, pushText_escape]
    simp [Item.marks, Item.marksAll, pushText]
  | @holdingElements name attrs content hnames hreadable ih =>
    cases content with
    | nil =>
      have hsplit : (Item.element name attrs []).xml.toList =
          '<' :: (name.toList ++ ((tagAttrs escape attrs).toList ++
            (closing true ++ '>' :: []))) := by
        simp [Item.xml, closing]
      rw [hsplit, read_startTag _ _ hnames]
      rfl
    | cons i is =>
      have hword := (isWord_of_all_tagNames hnames).1
      have hsplit : (Item.element name attrs (i :: is)).xml.toList =
          '<' :: (name.toList ++ ((tagAttrs escape attrs).toList ++ (closing false ++ '>' ::
            ((Item.xmlAll (i :: is)).toList ++ '<' :: '/' :: (name.toList ++ ['>']))))) := by
        simp [Item.xml, closing]
      rw [hsplit, read_startTag _ _ hnames, read_append, read_xmlAll ih, read_endTag _ _ hword]
      simp [Item.marks, pushText]

end Scanner

/-- If a text is scanned, so is the text with a readable element after it. -/
theorem scan_append_xml {front : List Char} {marks : List Mark} (hscanned : scan front = some marks)
    {i : Item} (h : i.Readable) : scan (front ++ i.xml.toList) = some (marks ++ i.marks) := by
  unfold scan at hscanned ⊢
  split at hscanned
  · rename_i found heq
    cases hscanned
    rw [Scanner.read_append, heq, Scanner.read_xml h]
    simp
  · cases hscanned

/-- The prologue and instructions are skipped. -/
theorem eventsOf_replicate_other_append (n : Nat) (marks : List Mark) :
    eventsOf (List.replicate n .other ++ marks) = eventsOf marks := by
  induction n with
  | zero => rfl
  | succ n ih => rw [List.replicate_succ, List.cons_append, eventsOf, ih]

/-- The events of a readable element are read back from a document, given by a front that holds
nothing but instructions and by the text of the element. -/
theorem eventsOf_scan {front : List Char} {n : Nat}
    (hscanned : scan front = some (List.replicate n .other)) {i : Item} (h : i.Readable) :
    (scan (front ++ i.xml.toList)).map eventsOf = some i.events := by
  have hevents := eventsOf_marks_append h []
  rw [List.append_nil, eventsOf, List.append_nil] at hevents
  rw [scan_append_xml hscanned h, Option.map_some, eventsOf_replicate_other_append, hevents]

end Xml

end ParseMarkup
