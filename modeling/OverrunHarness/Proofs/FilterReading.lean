import OverrunHarness.CommandLine.Process
import OverrunHarness.Proofs.WellFormedText
/-!
# Log variables that are answered for

The reader of filters answers for a text, with a filter or by refusing it, unless one of its cuts
falls within a character. This module says when that cannot be.

The positions of a piece are found in the text without the blanks around it and used in the text
with them. `Piece.Aligned` is what makes that come out well: every place between two characters that
are still to be looked at is a place between two characters as written, too. It passes to whatever
is left of a piece (`Piece.Aligned.behind`), and no part of an aligned piece tears (`rule_answers`).
A piece is aligned if nothing is in front of it, or if none of its characters is wider than a byte
(`Piece.aligned_ofText`).

Other pieces may tear, and `Piece.Tears` are some that do, whatever they ask for: a space in front
takes the end of the target one byte back, into its last character (`Piece.rule_of_tears`).
-/

namespace OverrunHarness

/-! ### Places in a text -/

namespace Utf8

@[simp] theorem width_nil : width [] = 0 := rfl

@[simp] theorem width_cons (c : Char) (cs : List Char) : width (c :: cs) = c.utf8Size + width cs :=
  rfl

@[simp] theorem width_append (cs ds : List Char) : width (cs ++ ds) = width cs + width ds := by
  induction cs with
  | nil => simp
  | cons c cs ih => simp [ih, Nat.add_assoc]

@[simp] theorem dropBytes?_zero (cs : List Char) : dropBytes? 0 cs = some cs := by
  rw [dropBytes?]

theorem dropBytes?_cons {n : Nat} (h : 0 < n) (c : Char) (cs : List Char) :
    dropBytes? n (c :: cs) = if c.utf8Size ≤ n then dropBytes? (n - c.utf8Size) cs else none := by
  cases n with
  | zero => exact absurd h (Nat.lt_irrefl 0)
  | succ n => rfl

/-- Behind the bytes of its beginning a text has its rest. -/
theorem dropBytes?_width_append (cs ds : List Char) :
    dropBytes? (width cs) (cs ++ ds) = some ds := by
  induction cs with
  | nil => exact dropBytes?_zero ds
  | cons c cs ih =>
    have hpos : 0 < width (c :: cs) := Nat.add_pos_left c.utf8Size_pos _
    rw [List.cons_append, dropBytes?_cons hpos, width_cons, if_pos (Nat.le_add_right _ _),
      Nat.add_sub_cancel_left, ih]

/-- Bytes can be dropped in two goes. -/
theorem dropBytes?_add {m : Nat} {cs ds : List Char} (h : dropBytes? m cs = some ds) (n : Nat) :
    dropBytes? (m + n) cs = dropBytes? n ds := by
  induction m, cs using dropBytes?.induct with
  | case1 cs =>
    rw [dropBytes?_zero] at h
    obtain rfl := Option.some.inj h
    rw [Nat.zero_add]
  | case2 m => cases h
  | case3 m c cs hfits ih =>
    rw [dropBytes?, if_pos hfits] at h
    rw [dropBytes?_cons (by omega), if_pos (by omega), ← ih h]
    congr 1
    omega
  | case4 m c cs hwide =>
    rw [dropBytes?, if_neg hwide] at h
    cases h

/-- There is nothing behind a number of bytes that end within a character. -/
theorem dropBytes?_of_within {n : Nat} {front : List Char} {c : Char} {rest : List Char}
    (hlow : width front < n) (hhigh : n < width front + c.utf8Size) :
    dropBytes? n (front ++ c :: rest) = none := by
  obtain ⟨k, rfl⟩ := Nat.exists_eq_add_of_lt hlow
  rw [Nat.add_assoc, dropBytes?_add (dropBytes?_width_append front (c :: rest)),
    dropBytes?_cons (Nat.succ_pos k), if_neg (by omega)]

/-- Where bytes can be dropped, they can be taken. -/
theorem isSome_takeBytes? (n : Nat) (cs : List Char) :
    (takeBytes? n cs).isSome = (dropBytes? n cs).isSome := by
  induction n, cs using dropBytes?.induct with
  | case1 cs => rw [takeBytes?, dropBytes?]; rfl
  | case2 m => rfl
  | case3 m c cs hfits ih =>
    rw [takeBytes?, dropBytes?, if_pos hfits, if_pos hfits, Option.isSome_map, ih]
  | case4 m c cs hwide =>
    rw [takeBytes?, dropBytes?, if_neg hwide, if_neg hwide, Option.isSome_none]

theorem width_eq_length {cs : List Char} (h : ∀ c ∈ cs, c.utf8Size = 1) : width cs = cs.length := by
  induction cs with
  | nil => rfl
  | cons c cs ih =>
    rw [width_cons, h c List.mem_cons_self, ih fun d hd => h d (List.mem_cons_of_mem c hd),
      List.length_cons, Nat.add_comm]

/-- Where every character is a byte, bytes are dropped like characters. -/
theorem dropBytes?_of_bytes {cs : List Char} (h : ∀ c ∈ cs, c.utf8Size = 1) {n : Nat}
    (hn : n ≤ cs.length) : dropBytes? n cs = some (cs.drop n) := by
  have hfront : ∀ c ∈ cs.take n, c.utf8Size = 1 := fun c hc => h c (List.mem_of_mem_take hc)
  have hwidth : width (cs.take n) = n := by
    rw [width_eq_length hfront, List.length_take_of_le hn]
  have hdrop := dropBytes?_width_append (cs.take n) (cs.drop n)
  rwa [hwidth, List.take_append_drop] at hdrop

end Utf8

/-! ### Answers -/

/-- Reading comes to something, if only to a refusal. -/
def Answers {α : Type} (x : Except FilterFault α) : Prop := x ≠ .error .torn

section Answers

variable {α β : Type}

theorem answers_ok (a : α) : Answers (.ok a : Except FilterFault α) := fun h => nomatch h

theorem answers_unreadable : Answers (.error .unreadable : Except FilterFault α) :=
  fun h => nomatch h

theorem Answers.map {x : Except FilterFault α} (h : Answers x) (f : α → β) : Answers (x.map f) := by
  cases x with
  | ok a => exact answers_ok (f a)
  | error fault => exact fun hfault => h (congrArg _ (Except.error.inj hfault))

theorem Answers.bind {x : Except FilterFault α} (h : Answers x) {f : α → Except FilterFault β}
    (hf : ∀ a, x = .ok a → Answers (f a)) : Answers (x.bind f) := by
  cases x with
  | ok a => exact hf a rfl
  | error fault => exact fun hfault => h (congrArg _ (Except.error.inj hfault))

theorem answers_mapM {f : α → Except FilterFault β} {as : List α} (h : ∀ a ∈ as, Answers (f a)) :
    Answers (as.mapM f) := by
  induction as with
  | nil => exact answers_ok []
  | cons a as ih =>
    rw [List.mapM_cons]
    refine (h a List.mem_cons_self).bind fun b _ => ?_
    exact (ih fun a' ha' => h a' (List.mem_cons_of_mem a ha')).bind fun bs _ => answers_ok (b :: bs)

end Answers

/-! ### Pieces that do not tear -/

namespace Piece

/-- Every place between two characters that are left to look at is one in the text as written. -/
def Aligned (p : Piece) : Prop :=
  ∀ front behind, p.rest = front ++ behind →
    (Utf8.dropBytes? (p.start + Utf8.width front) p.text).isSome = true

/-- What is left of an aligned piece is aligned. -/
theorem Aligned.behind {p : Piece} (h : p.Aligned) {front behind : List Char}
    (hrest : p.rest = front ++ behind) :
    Aligned ⟨p.text, p.start + Utf8.width front, behind⟩ := by
  intro front' behind' hbehind
  obtain rfl : behind = front' ++ behind' := hbehind
  have hplace := h (front ++ front') behind' (by rw [hrest, List.append_assoc])
  rwa [Utf8.width_append, ← Nat.add_assoc] at hplace

theorem Aligned.tail {p : Piece} (h : p.Aligned) {c : Char} {rest : List Char}
    (hrest : p.rest = c :: rest) : Aligned ⟨p.text, p.start + c.utf8Size, rest⟩ :=
  h.behind (show p.rest = [c] ++ rest from hrest)

/-- Where a mark is found, and what is behind it. -/
theorem find?_eq_some {p behind : Piece} {marks : List Char} {stop : Nat} {mark : Char}
    (h : p.find? marks = some (stop, mark, behind)) :
    ∃ front rest, p.rest = front ++ mark :: rest ∧ stop = p.start + Utf8.width front ∧
      behind = ⟨p.text, stop + mark.utf8Size, rest⟩ := by
  have hrest := List.takeWhile_append_dropWhile (p := fun c => c ∉ marks) (l := p.rest)
  rw [find?] at h
  split at h
  · cases h
  · rename_i c rest hdrop
    simp only [Option.some.injEq, Prod.mk.injEq] at h
    obtain ⟨rfl, rfl, rfl⟩ := h
    rw [hdrop] at hrest
    exact ⟨_, rest, hrest.symm, rfl, rfl⟩

/-- The first mark is found where it stands. -/
theorem find?_of_rest {p : Piece} {marks front rest : List Char} {mark : Char}
    (hrest : p.rest = front ++ mark :: rest) (hfront : ∀ c ∈ front, c ∉ marks)
    (hmark : mark ∈ marks) :
    p.find? marks = some (p.start + Utf8.width front, mark,
      ⟨p.text, p.start + Utf8.width front + mark.utf8Size, rest⟩) := by
  let passes (c : Char) : Bool := c ∉ marks
  have hpasses : ∀ c ∈ front, passes c = true := fun c hc => decide_eq_true (hfront c hc)
  have hstop : ¬passes mark = true := by simp [passes, hmark]
  have htake : p.rest.takeWhile passes = front := by
    rw [hrest, List.takeWhile_append_of_pos hpasses, List.takeWhile_cons_of_neg hstop,
      List.append_nil]
  have hdrop : p.rest.dropWhile passes = mark :: rest := by
    rw [hrest, List.dropWhile_append_of_pos hpasses, List.dropWhile_cons_of_neg hstop]
  rw [find?, htake, hdrop]

theorem Aligned.of_find? {p behind : Piece} (h : p.Aligned) {marks : List Char} {stop : Nat}
    {mark : Char} (hfind : p.find? marks = some (stop, mark, behind)) : behind.Aligned := by
  obtain ⟨front, rest, hrest, rfl, rfl⟩ := find?_eq_some hfind
  have hmark : p.rest = (front ++ [mark]) ++ rest := by rw [hrest, List.append_assoc]; rfl
  have hbehind := h.behind hmark
  rwa [Utf8.width_append, ← Nat.add_assoc] at hbehind

theorem Aligned.exists_written {p : Piece} (h : p.Aligned) :
    ∃ text, p.written = .ok text ∧ Utf8.dropBytes? p.start p.text = some text := by
  obtain ⟨text, htext⟩ := Option.isSome_iff_exists.mp (h [] p.rest rfl)
  refine ⟨text, ?_, htext⟩
  rw [written, show Utf8.dropBytes? p.start p.text = some text from htext]
  rfl

theorem written_answers {p : Piece} (h : p.Aligned) : Answers p.written := by
  obtain ⟨text, hwritten, -⟩ := h.exists_written
  rw [hwritten]
  exact answers_ok text

/-- Up to a mark that was found there is something to cut. -/
theorem writtenTo_answers {p behind : Piece} (h : p.Aligned) {marks : List Char} {stop : Nat}
    {mark : Char} (hfind : p.find? marks = some (stop, mark, behind)) :
    Answers (p.writtenTo stop) := by
  obtain ⟨front, rest, hrest, rfl, -⟩ := find?_eq_some hfind
  obtain ⟨text, hwritten, hdrop⟩ := h.exists_written
  have htake : (Utf8.takeBytes? (Utf8.width front) text).isSome = true := by
    rw [Utf8.isSome_takeBytes?, ← Utf8.dropBytes?_add hdrop]
    exact h front (mark :: rest) hrest
  obtain ⟨part, hpart⟩ := Option.isSome_iff_exists.mp htake
  rw [writtenTo, hwritten, Nat.add_sub_cancel_left]
  dsimp only [Except.bind]
  rw [hpart]
  exact answers_ok part

theorem level_answers {p : Piece} (h : p.Aligned) : Answers p.level := by
  refine (written_answers h).bind fun text _ => ?_
  split
  · exact answers_ok _
  · cases Verbosity.read? text with
    | none => exact answers_unreadable
    | some verbosity => exact answers_ok verbosity

theorem afterBracket_answers {p : Piece} (h : p.Aligned) : Answers p.afterBracket := by
  rw [afterBracket]
  split
  · exact answers_ok _
  · rename_i c rest hrest
    split
    · exact level_answers (h.tail hrest)
    · exact answers_unreadable

theorem selector_answers {p : Piece} (h : p.Aligned) : Answers p.selector := by
  rw [selector]
  split
  · exact answers_unreadable
  · rename_i stop mark behind hfind
    refine (writtenTo_answers h hfind).bind fun text _ => ?_
    split
    · rename_i hmore
      exact (afterBracket_answers ((h.of_find? hfind).tail hmore)).map _
    · exact answers_unreadable

theorem bracket_answers (target : Option (List Char)) {p : Piece} (h : p.Aligned) :
    Answers (bracket target p) := by
  rw [bracket]
  split
  · exact answers_unreadable
  · rename_i stop mark behind hfind
    refine (writtenTo_answers h hfind).bind fun span _ => ?_
    split
    · exact (afterBracket_answers (h.of_find? hfind)).map _
    · exact (selector_answers (h.of_find? hfind)).map _

/-- No part of an aligned piece tears. -/
theorem rule_answers {p : Piece} (h : p.Aligned) : Answers p.rule := by
  rw [rule]
  split
  · exact answers_unreadable
  · rename_i c rest hrest
    split
    · rename_i hc
      subst hc
      exact bracket_answers none (h.tail hrest)
    · split
      · split
        · exact (written_answers h).map _
        · rename_i stop mark behind hfind
          refine (writtenTo_answers h hfind).bind fun target _ => ?_
          split
          · exact (level_answers (h.of_find? hfind)).map _
          · exact bracket_answers (some target) (h.of_find? hfind)
      · exact answers_unreadable

/-- A piece with no blank in front of it, or with no character wider than a byte. -/
def IsPlain (text : List Char) : Prop :=
  (∀ c ∈ text.head?, isBlank c = false) ∨ ∀ c ∈ text, c.utf8Size = 1

/-- A text is what is left between the blanks around it, and these. -/
theorem exists_rest_ofText (text : List Char) :
    ∃ after, text = text.takeWhile isBlank ++ ((ofText text).rest ++ after) ∧
      ∀ c ∈ after, isBlank c = true := by
  refine ⟨((text.dropWhile isBlank).reverse.takeWhile isBlank).reverse, ?_, fun c hc => ?_⟩
  · have htrimmed : (ofText text).rest ++
        ((text.dropWhile isBlank).reverse.takeWhile isBlank).reverse = text.dropWhile isBlank := by
      rw [ofText, ← List.reverse_append, List.takeWhile_append_dropWhile, List.reverse_reverse]
    rw [htrimmed, List.takeWhile_append_dropWhile]
  · exact List.all_eq_true.mp List.all_takeWhile c (List.mem_reverse.mp hc)

theorem aligned_ofText {text : List Char} (h : IsPlain text) : (ofText text).Aligned := by
  intro front behind hrest
  obtain ⟨after, htext, -⟩ := exists_rest_ofText text
  rw [hrest] at htext
  have hstart : (ofText text).start + Utf8.width front = Utf8.width front := Nat.zero_add _
  rw [hstart]
  change (Utf8.dropBytes? (Utf8.width front) text).isSome = true
  rcases h with hfront | hbytes
  · -- nothing is taken off in front, so the places are those of the text itself
    have hnone : text.takeWhile isBlank = [] := by
      cases text with
      | nil => rfl
      | cons c cs => rw [List.takeWhile_cons_of_neg (by simp [hfront c rfl])]
    rw [htext, hnone, List.nil_append, List.append_assoc, Utf8.dropBytes?_width_append]
    rfl
  · have hfront : ∀ c ∈ front, c.utf8Size = 1 := by
      intro c hc
      refine hbytes c ?_
      rw [htext]
      simp [hc]
    have hlength : Utf8.width front ≤ text.length := by
      have htotal := congrArg List.length htext
      simp only [List.length_append] at htotal
      rw [Utf8.width_eq_length hfront]
      omega
    rw [Utf8.dropBytes?_of_bytes hbytes hlength]
    rfl

/-! ### Pieces that tear -/

/-- A piece with a space in front of a target that ends in a character of more than one byte. The
cut behind the target falls within that character, whatever level is asked for. -/
inductive Tears : List Char → Prop
  | intro {target level : List Char} {last : Char}
      (begins : ∀ c ∈ target.head?, canBegin c = true ∧ isBlank c = false)
      (ends : target.getLast? = some last) (wide : 1 < last.utf8Size)
      (unmarked : ∀ c ∈ target, c ∉ ['=', '[', ',']) (alone : ',' ∉ level) :
      Tears (' ' :: target ++ '=' :: level)

/-- What is left of a tearing piece without the blanks around it still has its target. -/
theorem exists_rest_of_target {target : List Char} (level : List Char) (hne : target ≠ [])
    (hbegins : ∀ c ∈ target.head?, isBlank c = false) :
    ∃ rest, (ofText (' ' :: target ++ '=' :: level)).rest = target ++ '=' :: rest := by
  obtain ⟨after, htext, hafter⟩ := exists_rest_ofText (' ' :: target ++ '=' :: level)
  obtain ⟨c, cs, rfl⟩ := List.exists_cons_of_ne_nil hne
  have hblanks : (' ' :: (c :: cs) ++ '=' :: level).takeWhile isBlank = [' '] := by
    have hspace : isBlank ' ' = true := by decide
    rw [List.cons_append, List.cons_append, List.takeWhile_cons_of_pos hspace,
      List.takeWhile_cons_of_neg (by simp [hbegins c rfl])]
  rw [hblanks] at htext
  have hrest : (ofText (' ' :: (c :: cs) ++ '=' :: level)).rest ++ after =
      (c :: cs ++ ['=']) ++ level := by
    rw [List.append_assoc]
    exact (List.cons.inj htext).2.symm
  rcases List.append_eq_append_iff.mp hrest with ⟨more, hfront, hbehind⟩ | ⟨more, hfront, -⟩
  · cases hlast : more.getLast? with
    | none =>
      obtain rfl := List.getLast?_eq_none_iff.mp hlast
      rw [List.append_nil] at hfront
      exact ⟨[], hfront.symm⟩
    | some d =>
      -- the equals sign is no blank, so it is not among what was taken off
      have hend := congrArg List.getLast? hfront
      rw [List.getLast?_append, List.getLast?_append, hlast] at hend
      obtain rfl : '=' = d := by simpa using hend
      have hmem : '=' ∈ after := hbehind ▸ List.mem_append_left _ (List.mem_of_getLast? hlast)
      exact absurd (hafter '=' hmem) (by decide)
  · exact ⟨more, by rw [hfront, List.append_assoc]; rfl⟩

/-- From the beginning of a piece, cuts are made in the text as written. -/
theorem writtenTo_ofText (text : List Char) (stop : Nat) :
    (ofText text).writtenTo stop = (Utf8.takeBytes? stop text).getDM (.error .torn) := by
  have hwritten : (ofText text).written = .ok text := by
    rw [written, ofText, Utf8.dropBytes?_zero]
    rfl
  rw [writtenTo, hwritten]
  rfl

/-- One space further on, the width of a text ends within its last character. -/
theorem takeBytes?_width_of_space {front : List Char} {last : Char} (wide : 1 < last.utf8Size)
    (rest : List Char) :
    Utf8.takeBytes? (Utf8.width (front ++ [last])) ((' ' :: front) ++ last :: rest) = none := by
  have hspace : (' ').utf8Size = 1 := by decide
  have hdrop : Utf8.dropBytes? (Utf8.width (front ++ [last])) ((' ' :: front) ++ last :: rest) =
      none := by
    refine Utf8.dropBytes?_of_within ?_ ?_
    · simp only [Utf8.width_cons, Utf8.width_append, Utf8.width_nil, hspace]
      omega
    · simp only [Utf8.width_cons, Utf8.width_append, Utf8.width_nil, hspace]
      omega
  rw [← Option.not_isSome_iff_eq_none, Utf8.isSome_takeBytes?, hdrop]
  exact Bool.false_ne_true

/-- A piece with a target and a level: the target is cut first. -/
theorem rule_of_target {p : Piece} {target rest : List Char}
    (hrest : p.rest = target ++ '=' :: rest) (hne : target ≠ [])
    (hbegins : ∀ c ∈ target.head?, canBegin c = true)
    (hunmarked : ∀ c ∈ target, c ∉ ['=', '[']) :
    p.rule = (p.writtenTo (p.start + Utf8.width target)).bind fun written =>
      (level ⟨p.text, p.start + Utf8.width target + ('=').utf8Size, rest⟩).map fun verbosity =>
        some ⟨some written, none, verbosity⟩ := by
  have hfind := find?_of_rest hrest hunmarked List.mem_cons_self
  obtain ⟨c, cs, rfl⟩ := List.exists_cons_of_ne_nil hne
  have hbracket : c ≠ '[' := fun hc => hunmarked c List.mem_cons_self (by simp [hc])
  rw [rule, hrest]
  dsimp only [List.cons_append]
  rw [if_neg hbracket, if_pos (hbegins c rfl), hfind]
  rfl

theorem rule_of_tears {text : List Char} (h : Tears text) : (ofText text).rule = .error .torn := by
  cases h with
  | @intro target level last begins ends wide unmarked alone =>
    obtain ⟨front, rfl⟩ := List.getLast?_eq_some_iff.mp ends
    have hne : front ++ [last] ≠ [] := by simp
    have hunmarked : ∀ c ∈ front ++ [last], c ∉ ['=', '['] := by
      intro c hc hmark
      exact unmarked c hc (List.mem_append_left [','] hmark)
    obtain ⟨rest, hrest⟩ := exists_rest_of_target level hne fun c hc => (begins c hc).2
    have htext : ' ' :: (front ++ [last]) ++ '=' :: level =
        (' ' :: front) ++ last :: '=' :: level := by simp
    have hstart (text : List Char) : (ofText text).start + Utf8.width (front ++ [last]) =
        Utf8.width (front ++ [last]) := Nat.zero_add _
    rw [rule_of_target hrest hne (fun c hc => (begins c hc).1) hunmarked, hstart,
      writtenTo_ofText, htext, takeBytes?_width_of_space wide]
    rfl

end Piece

/-! ### Log variables -/

/-- Whatever a reading comes to is taken for some filter. -/
theorem Answers.exists_filter {reading : Except FilterFault Filter} (h : Answers reading) :
    ∃ filter, Filter.answer? reading = some filter := by
  cases reading with
  | ok filter => exact ⟨filter, rfl⟩
  | error fault =>
    cases fault with
    | unreadable => exact ⟨.silent, rfl⟩
    | torn => exact absurd rfl h

/-- Without a comma a text is a single piece. -/
theorem Filter.pieces_of_not_mem {text : List Char} (h : ',' ∉ text) : pieces text = [text] := by
  induction text with
  | nil => rfl
  | cons c cs ih =>
    have hc : c ≠ ',' := fun hc => h (hc ▸ List.mem_cons_self)
    rw [pieces, if_neg hc, ih fun hcs => h (List.mem_cons_of_mem c hcs)]

theorem Piece.Tears.ne_nil {text : List Char} (h : Tears text) : text ≠ [] := by
  cases h
  exact List.cons_ne_nil _ _

theorem Piece.Tears.comma_not_mem {text : List Char} (h : Tears text) : ',' ∉ text := by
  cases h with
  | @intro target level last begins ends wide unmarked alone =>
    intro hmem
    rcases List.mem_append.mp hmem with hfront | hbehind
    · rcases List.mem_cons.mp hfront with hspace | htarget
      · exact absurd hspace (by decide)
      · exact unmarked ',' htarget (by decide)
    · rcases List.mem_cons.mp hbehind with hequals | hlevel
      · exact absurd hequals (by decide)
      · exact alone hlevel

/-- On a text that is a tearing piece the reader breaks off. -/
theorem Filter.parse_of_tears {text : String} (h : Piece.Tears text.toList) :
    parse text = .error .torn := by
  have hgiven : (pieces text.toList).filter (· ≠ []) = [text.toList] := by
    rw [pieces_of_not_mem h.comma_not_mem]
    exact List.filter_cons_of_pos (decide_eq_true h.ne_nil)
  rw [parse, hgiven, List.mapM_cons, Piece.rule_of_tears h]
  rfl

theorem Filter.parse_answers {text : String}
    (h : ∀ piece ∈ pieces text.toList, Piece.IsPlain piece) : Answers (parse text) := by
  refine (answers_mapM fun piece hpiece => ?_).map _
  exact Piece.rule_answers (Piece.aligned_ofText (h piece (List.mem_filter.mp hpiece).1))

namespace Environment

/-- The reader of filters answers for what the log variable holds, if only by refusing it. That it
does is what the program takes from the reader, which is not its own: it is meant to answer for
whatever it is given, and `FilterFault.torn` is where it does not. -/
def LogAnswered (env : Environment) : Prop := ∃ filter, env.filter? = some filter

/-- Without an answer there is no filter. -/
theorem not_logAnswered_iff {env : Environment} : ¬env.LogAnswered ↔ env.filter? = none := by
  rw [LogAnswered, ← Option.isSome_iff_exists]
  simp

/-- The filter of a text in UTF-8. -/
theorem filter?_encode (env : Environment) (t : String) :
    { env with log := some (Utf8.encode t) }.filter? = Filter.answer? (Filter.parse t) := by
  have hdecode : (some (Utf8.encode t)).bind Utf8.decode? = some t :=
    Utf8.decode?_eq_some_iff.mpr rfl
  rw [filter?, hdecode, Option.elim_some]

/-- Bytes that are no text are no filter. -/
theorem filter?_of_not_text (env : Environment) {bs : Bytes} (h : ∀ t, bs ≠ Utf8.encode t) :
    { env with log := some bs }.filter? = some .silent := by
  have hdecode : (some bs).bind Utf8.decode? = none := by
    cases htext : Utf8.decode? bs with
    | none => exact htext
    | some t => exact absurd (Utf8.decode?_eq_some_iff.mp htext) (h t)
  rw [filter?, hdecode, Option.elim_none]

/-- The reader answers for whatever is not set, is not text, or is a text of plain pieces. -/
theorem logAnswered_of_isPlain {env : Environment}
    (h : ∀ t, env.log = some (Utf8.encode t) →
      ∀ piece ∈ Filter.pieces t.toList, Piece.IsPlain piece) : env.LogAnswered := by
  rw [LogAnswered, filter?]
  cases hdecode : env.log.bind Utf8.decode? with
  | none => exact ⟨.silent, rfl⟩
  | some text =>
    obtain ⟨bs, hlog, htext⟩ := Option.bind_eq_some_iff.mp hdecode
    obtain rfl := Utf8.decode?_eq_some_iff.mp htext
    exact (Filter.parse_answers (h text hlog)).exists_filter

theorem not_logAnswered_of_tears {env : Environment} {t : String}
    (hlog : env.log = some (Utf8.encode t)) (h : Piece.Tears t.toList) : ¬env.LogAnswered := by
  have hfilter := env.filter?_encode t
  rw [← hlog, Filter.parse_of_tears h] at hfilter
  exact not_logAnswered_iff.mpr hfilter

end Environment

end OverrunHarness
