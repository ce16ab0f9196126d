import Mathlib.Data.List.Basic
import OverrunHarness.Proofs.DryRun
import OverrunHarness.Proofs.Replay
/-!
# Printed plans are read back

A plan loses nothing by being printed: there is a reader that takes the printed text and answers
with the plan.

Design points:

* A reader takes a value off the front of a text. It is exact for a writer (`Reader.Inverts`) if it
  takes off what the writer writes **and nothing else**, whatever stands behind it. This is what
  lets readers be put one behind the other (`Inverts.both`), and one reader as often as there is
  text left (`Inverts.all_eq_some_iff`).
* Both forms of an overrun are three fields, each with a label in front and a mark behind that its
  value does not hold (`Inverts.field`). So only three values have to be read from a whole word: a
  name, decimal digits and two hexadecimal digits.
-/

namespace OverrunHarness

/-- Takes a value off the front of a text. -/
abbrev Reader (α : Type) := List Char → Option (α × List Char)

namespace Reader

variable {α β : Type}

/-- Reads a label and the value behind it, which a mark ends. -/
def field (label : String) (mark : Char) (value? : List Char → Option α) : Reader α := fun text =>
  (text.dropPrefix? label.toList).bind fun text =>
    match text.dropWhile (· ≠ mark) with
    | [] => none
    | _ :: rest => (value? (text.takeWhile (· ≠ mark))).map fun a => (a, rest)

/-- Reads one value and then another. -/
def both (first : Reader α) (second : Reader β) : Reader (α × β) := fun text =>
  (first text).bind fun (a, text) => (second text).map fun (b, rest) => ((a, b), rest)

/-- Reads values up to the end of the text. -/
def all (read : Reader α) : List Char → Option (List α)
  | [] => some []
  | c :: cs =>
    match read (c :: cs) with
    | none => none
    | some (a, rest) =>
      if rest.length < (c :: cs).length then (all read rest).map (a :: ·) else none
  termination_by text => text.length
  decreasing_by assumption

/-- Whether a reader takes off exactly what a writer writes. -/
def Inverts (read : Reader α) (write : α → List Char) : Prop :=
  ∀ text a rest, read text = some (a, rest) ↔ text = write a ++ rest

/-- A field is read back if its value is, and if the mark is not found in the value. -/
theorem Inverts.field (label : String) (mark : Char) {value? : List Char → Option α}
    {word : α → List Char} (hvalue : ∀ w a, value? w = some a ↔ w = word a)
    (hmark : ∀ a, mark ∉ word a) :
    Inverts (field label mark value?) fun a => label.toList ++ (word a ++ [mark]) := by
  intro text a rest
  have hword : ∀ c ∈ word a, decide (c ≠ mark) = true := by
    intro c hc
    exact decide_eq_true fun heq => hmark a (heq ▸ hc)
  constructor
  · intro h
    obtain ⟨body, hbody, h⟩ := Option.bind_eq_some_iff.mp h
    obtain ⟨label', htext, hlabel⟩ := List.dropPrefix?_eq_some_iff.mp hbody
    obtain rfl := eq_of_beq hlabel
    -- behind the label, the text is the word, the mark that ended it and the rest
    have hsplit := List.takeWhile_append_dropWhile (p := (· ≠ mark)) (l := body)
    have hhead := List.head?_dropWhile_not (· ≠ mark) body
    cases hdrop : body.dropWhile (· ≠ mark) with
    | nil =>
      rw [hdrop] at h
      cases h
    | cons c behind =>
      rw [hdrop] at h hsplit hhead
      obtain ⟨a', ha, heq⟩ := Option.map_eq_some_iff.mp h
      obtain ⟨rfl, rfl⟩ := Prod.mk.inj heq
      obtain rfl : c = mark := by simpa using hhead
      rw [htext, ← hsplit, (hvalue _ _).mp ha]
      simp
  · intro h
    have htext : text = label.toList ++ (word a ++ mark :: rest) := by simpa using h
    have hdrop : (word a ++ mark :: rest).dropWhile (· ≠ mark) = mark :: rest := by
      rw [List.dropWhile_append_of_pos hword, List.dropWhile_cons_of_neg (by simp)]
    have htake : (word a ++ mark :: rest).takeWhile (· ≠ mark) = word a := by
      rw [List.takeWhile_append_of_pos hword, List.takeWhile_cons_of_neg (by simp),
        List.append_nil]
    rw [Reader.field, htext, List.dropPrefix?_append_of_beq _ (beq_self_eq_true _),
      Option.bind_some, hdrop, htake, (hvalue _ _).mpr rfl]
    rfl

theorem Inverts.both {first : Reader α} {second : Reader β} {write : α → List Char}
    {write' : β → List Char} (h : Inverts first write) (h' : Inverts second write') :
    Inverts (first.both second) fun p => write p.1 ++ write' p.2 := by
  intro text ⟨a, b⟩ rest
  constructor
  · intro hread
    obtain ⟨⟨a', behind⟩, hfirst, hread⟩ := Option.bind_eq_some_iff.mp hread
    obtain ⟨⟨b', rest'⟩, hsecond, heq⟩ := Option.map_eq_some_iff.mp hread
    obtain ⟨⟨rfl, rfl⟩, rfl⟩ : (a' = a ∧ b' = b) ∧ rest' = rest := by simpa using heq
    rw [(h _ _ _).mp hfirst, (h' _ _ _).mp hsecond, List.append_assoc]
  · intro htext
    have hfirst : first text = some (a, write' b ++ rest) :=
      (h _ _ _).mpr (by rw [htext, List.append_assoc])
    have hsecond : second (write' b ++ rest) = some (b, rest) := (h' _ _ _).mpr rfl
    simp [Reader.both, hfirst, hsecond]

/-- What is written one after the other is read one after the other. -/
theorem Inverts.all_flatMap {read : Reader α} {write : α → List Char} (h : Inverts read write)
    (hne : ∀ a, write a ≠ []) (values : List α) :
    all read (values.flatMap write) = some values := by
  induction values with
  | nil => rw [List.flatMap_nil, all]
  | cons a values ih =>
    have hread := (h _ a (values.flatMap write)).mpr rfl
    have hlt : (values.flatMap write).length < (write a ++ values.flatMap write).length := by
      have hpos := List.length_pos_of_ne_nil (hne a)
      rw [List.length_append]
      omega
    rw [List.flatMap_cons]
    cases htext : write a ++ values.flatMap write with
    | nil => simp [htext] at hlt
    | cons c cs =>
      rw [htext] at hread hlt
      rw [all, hread]
      dsimp only
      rw [if_pos hlt, ih, Option.map_some]

theorem Inverts.all_eq_some_iff {read : Reader α} {write : α → List Char} (h : Inverts read write)
    (hne : ∀ a, write a ≠ []) {text : List Char} {values : List α} :
    all read text = some values ↔ text = values.flatMap write := by
  constructor
  · intro hall
    fun_induction all read text generalizing values with
    | case1 =>
      obtain rfl := Option.some.inj hall
      rfl
    | case2 => cases hall
    | case3 c cs a rest hread _ ih =>
      obtain ⟨values, hrest, rfl⟩ := Option.map_eq_some_iff.mp hall
      rw [(h _ _ _).mp hread, List.flatMap_cons, ih hrest]
    | case4 => cases hall
  · intro htext
    rw [htext, h.all_flatMap hne]

/-- Reads the one value that a text and a tail behind it make up. -/
def exactly? (read : Reader α) (tail : List Char) (text : List Char) : Option α :=
  (read text).bind fun (a, rest) => if rest = tail then some a else none

theorem Inverts.exactly?_eq_some_iff {read : Reader α} {write : α → List Char}
    (h : Inverts read write) {tail text : List Char} {a : α} :
    exactly? read tail text = some a ↔ text = write a ++ tail := by
  rw [← h text a tail, exactly?]
  constructor
  · intro hread
    obtain ⟨⟨b, rest⟩, hfound, hread⟩ := Option.bind_eq_some_iff.mp hread
    obtain ⟨rfl, hb⟩ := Option.ite_none_right_eq_some.mp hread
    rw [hfound, Option.some.inj hb]
  · intro hread
    rw [hread, Option.bind_some]
    exact if_pos rfl

end Reader

/-! ### Values from words -/

/-- Values that are told apart by how they are written are found by it. -/
theorem find?_eq_some_iff_of_injective {α : Type} {word : α → List Char}
    (hword : Function.Injective word) {values : List α} (hvalues : ∀ a, a ∈ values)
    (w : List Char) (a : α) :
    values.find? (fun a => word a = w) = some a ↔ w = word a := by
  constructor
  · intro h
    simpa [eq_comm] using List.find?_some h
  · intro h
    cases hfind : values.find? (fun a => word a = w) with
    | none => simpa [h] using List.find?_eq_none.mp hfind a (hvalues a)
    | some b =>
      have hb : word b = w := by simpa using List.find?_some hfind
      rw [hword (hb.trans h)]

/-- The number that a word is the decimal digits of. Zeros in front are not let pass. -/
def Decimal.number? (word : List Char) : Option Nat :=
  let n := Nat.ofDigitChars 10 word 0
  if word = n.repr.toList then some n else none

theorem Decimal.number?_eq_some_iff (word : List Char) (n : Nat) :
    number? word = some n ↔ word = n.repr.toList := by
  constructor
  · intro h
    rw [number?, Option.ite_none_right_eq_some] at h
    obtain ⟨hword, hn⟩ := h
    rwa [← Option.some.inj hn]
  · intro h
    have hvalue : Nat.ofDigitChars 10 word 0 = n := by
      rw [h, Nat.toList_repr, Nat.ofDigitChars_toDigits (by decide) (by decide)]
    rw [number?, hvalue, if_pos h]

theorem Decimal.repr_injective {m n : Nat} (h : m.repr.toList = n.repr.toList) : m = n := by
  have hm := (number?_eq_some_iff m.repr.toList m).mpr rfl
  have hn := (number?_eq_some_iff m.repr.toList n).mpr h
  exact Option.some.inj (hm.symm.trans hn)

theorem Decimal.not_mem_repr {c : Char} (h : c.isDigit = false) (n : Nat) : c ∉ n.repr.toList := by
  intro hc
  rw [Nat.toList_repr] at hc
  simp [Nat.isDigit_of_mem_toDigits (by decide) (by decide) hc] at h

theorem Hex.digitChar_injOn {m n : Nat} (hm : m < 16) (hn : n < 16)
    (h : Nat.digitChar m = Nat.digitChar n) : m = n := by
  have hall : ∀ m < 16, ∀ n < 16, Nat.digitChar m = Nat.digitChar n → m = n := by decide
  exact hall m hm n hn h

theorem Hex.digits_injective : Function.Injective Hex.digits := by
  intro a b h
  have ha := a.toNat_lt
  have hb := b.toNat_lt
  simp only [digits, List.cons.injEq, and_true] at h
  have hhigh := digitChar_injOn (by omega) (by omega) h.1
  have hlow := digitChar_injOn (by omega) (by omega) h.2
  exact UInt8.toNat_inj.mp (by omega)

/-- Every byte. -/
def allBytes : List UInt8 := (List.range 256).map UInt8.ofNat

theorem mem_allBytes (b : UInt8) : b ∈ allBytes :=
  List.mem_map.mpr ⟨b.toNat, List.mem_range.mpr b.toNat_lt, UInt8.ofNat_toNat⟩

theorem Hex.not_mem_digits {c : Char} (h : ∀ n < 16, Nat.digitChar n ≠ c) (b : UInt8) :
    c ∉ digits b := by
  have hb := b.toNat_lt
  intro hc
  rw [digits, List.mem_cons, List.mem_singleton] at hc
  rcases hc with hc | hc
  · exact h _ (by omega) hc.symm
  · exact h _ (by omega) hc.symm

theorem Branch.name_injective {b b' : Branch} (h : b.name.toList = b'.name.toList) : b = b' := by
  have hname : ofName? b.name = ofName? b'.name := congrArg ofName? (String.toList_inj.mp h)
  rw [ofName?_name, ofName?_name] at hname
  exact Option.some.inj hname

theorem Branch.tag_injective {b b' : Branch} (h : b.tag.toList = b'.tag.toList) : b = b' := by
  cases b with
  | prefixA =>
    cases b' with
    | prefixA => rfl
    | random => exact absurd h (by decide)
  | random =>
    cases b' with
    | prefixA => exact absurd h (by decide)
    | random => rfl

theorem Branch.mem_all (b : Branch) : b ∈ Branch.all := by
  cases b <;> simp [Branch.all]

/-! ### Overruns and plans -/

namespace Overrun

/-- Reads an overrun from a reader for each of its parts. -/
def reader (branch : Reader Branch) (offset : Reader Nat) (value : Reader UInt8) : Reader Overrun :=
  fun text => (branch.both (offset.both value) text).map fun ((branch, offset, value), rest) =>
    (⟨branch, offset, value⟩, rest)

theorem inverts_reader {branch : Reader Branch} {offset : Reader Nat} {value : Reader UInt8}
    {writeBranch : Branch → List Char} {writeOffset : Nat → List Char}
    {writeValue : UInt8 → List Char} (hbranch : branch.Inverts writeBranch)
    (hoffset : offset.Inverts writeOffset) (hvalue : value.Inverts writeValue) :
    (reader branch offset value).Inverts fun o =>
      writeBranch o.branch ++ (writeOffset o.offset ++ writeValue o.value) := by
  intro text ⟨b, n, v⟩ rest
  rw [← hbranch.both (hoffset.both hvalue) text (b, n, v) rest, reader]
  simp

/-- Reads a line, line feed included. -/
def readLine : Reader Overrun :=
  reader (.field "branch=" ' ' fun w => Branch.all.find? fun b => b.name.toList = w)
    (.field "offset=" ' ' Decimal.number?)
    (.field "byte=0x" '\n' fun w => allBytes.find? fun b => Hex.digits b = w)

/-- Reads a record up to its brace. -/
def readRecord : Reader Overrun :=
  reader (.field "Overrun \x7b branch: " ',' fun w => Branch.all.find? fun b => b.tag.toList = w)
    (.field " offset: " ',' Decimal.number?)
    (.field " value: " ' ' fun w => allBytes.find? fun b => b.toNat.repr.toList = w)

/-- The line of an overrun is made of a name, decimal digits and two hexadecimal digits. None of
them holds the mark behind it. -/
theorem inverts_readLine : readLine.Inverts fun o => o.line.toList ++ ['\n'] := by
  have hbranch := Reader.Inverts.field "branch=" ' '
    (find?_eq_some_iff_of_injective (fun _ _ => Branch.name_injective) Branch.mem_all)
    (by intro b; cases b <;> decide)
  have hoffset := Reader.Inverts.field "offset=" ' ' Decimal.number?_eq_some_iff
    (Decimal.not_mem_repr (by decide))
  have hvalue := Reader.Inverts.field "byte=0x" '\n'
    (find?_eq_some_iff_of_injective Hex.digits_injective mem_allBytes)
    (Hex.not_mem_digits (by decide))
  -- each mark is written together with the label behind it
  have hoffsetLabel : " offset=".toList = ' ' :: "offset=".toList := rfl
  have hvalueLabel : " byte=0x".toList = ' ' :: "byte=0x".toList := rfl
  intro text o rest
  rw [readLine, inverts_reader hbranch hoffset hvalue]
  unfold line
  simp only [String.toList_append, String.toList_ofList, hoffsetLabel, hvalueLabel,
    List.append_assoc, List.cons_append, List.nil_append]

/-- The overrun that a text is the line of. -/
def ofLine? (text : String) : Option Overrun := readLine.exactly? [] (text.toList ++ ['\n'])

theorem ofLine?_eq_some_iff {text : String} {o : Overrun} :
    ofLine? text = some o ↔ text = o.line := by
  rw [ofLine?, inverts_readLine.exactly?_eq_some_iff, List.append_nil, List.append_left_inj,
    String.toList_inj]

/-- The overrun that a text is the record of. -/
def ofRecord? (text : String) : Option Overrun := readRecord.exactly? ['\x7d'] text.toList

/-- The record is made of the same parts as the line, but in it the byte is a number, too. -/
theorem ofRecord?_eq_some_iff {text : String} {o : Overrun} :
    ofRecord? text = some o ↔ text = o.record := by
  have hbranch := Reader.Inverts.field "Overrun \x7b branch: " ','
    (find?_eq_some_iff_of_injective (fun _ _ => Branch.tag_injective) Branch.mem_all)
    (by intro b; cases b <;> decide)
  have hoffset := Reader.Inverts.field " offset: " ',' Decimal.number?_eq_some_iff
    (Decimal.not_mem_repr (by decide))
  have hdigits : Function.Injective fun b : UInt8 => b.toNat.repr.toList := by
    intro b b' h
    exact UInt8.toNat_inj.mp (Decimal.repr_injective h)
  have hvalue := Reader.Inverts.field " value: " ' '
    (find?_eq_some_iff_of_injective hdigits mem_allBytes)
    (fun b => Decimal.not_mem_repr (by decide) b.toNat)
  -- each mark is written together with the label behind it
  have hoffsetLabel : ", offset: ".toList = ',' :: " offset: ".toList := rfl
  have hvalueLabel : ", value: ".toList = ',' :: " value: ".toList := rfl
  have hend : " \x7d".toList = [' ', '\x7d'] := rfl
  rw [ofRecord?, readRecord, (inverts_reader hbranch hoffset hvalue).exactly?_eq_some_iff,
    ← String.toList_inj]
  unfold record
  simp only [String.toList_append, hoffsetLabel, hvalueLabel, hend, List.append_assoc,
    List.cons_append, List.nil_append]

end Overrun

/-- The plan that a text is the print of. -/
def Plan.ofPrint? (text : String) : Option Plan := Overrun.readLine.all text.toList

theorem Plan.ofPrint?_eq_some_iff {text : String} {plan : Plan} :
    ofPrint? text = some plan ↔ text = String.join (plan.map fun o => o.line ++ "\n") := by
  rw [ofPrint?, Overrun.inverts_readLine.all_eq_some_iff (by simp), ← String.toList_inj]
  simp [List.flatMap_map]

/-- What can be read back is told apart by what is written. -/
theorem written_inj {α : Type} {read? : String → Option α} {write : α → String}
    (h : ∀ {text a}, read? text = some a ↔ text = write a) {a b : α} :
    write a = write b ↔ a = b := by
  constructor
  · intro heq
    have ha : read? (write a) = some a := h.mpr rfl
    have hb : read? (write a) = some b := h.mpr heq
    exact Option.some.inj (ha.symm.trans hb)
  · intro heq
    rw [heq]

/-! ### Dry runs -/

/-- A process that makes a dry run of an input. -/
structure MakesDryRun (args : List Bytes) (env : Environment) (fs : FileSystem) (inv : Invocation)
    (bs : Bytes) : Prop where
  accepted : Invocation.read args env.seed = .ok inv
  answered : env.LogAnswered
  dry : inv.options.dryRun = true
  loads : fs.load inv.path = .ok bs
  small : bs.length < 2 ^ 63

/-- A dry run of a process puts out the lines of the plan that the run over its file answers
with. -/
theorem MakesDryRun.output_eq {args : List Bytes} {env : Environment} {fs : FileSystem}
    {inv : Invocation} {bs : Bytes} (h : MakesDryRun args env fs inv bs) (outside : Nat → UInt32)
    (clock : Nat → String) (spare : Bytes) :
    ∃ run plan, runFile fs inv.path inv.options outside spare = .ok run ∧ run.plan = .ok plan ∧
      (runProcess args env fs outside clock spare).output =
        String.join (plan.map fun o => o.line ++ "\n") := by
  refine ⟨_, _, runFile_of_load h.loads _ _ _, plan_runBytes_of_lt h.small _ _ _, ?_⟩
  rw [runProcess_of_read env h.accepted, h.loads]
  exact (Invocation.perform_dryRun h.dry (plan_runBytes_of_lt h.small _ _ _) h.answered clock
    spare).2

/-- **The printed plan loses nothing.** The line of an overrun, whether or not a plan can hold it,
is read as that overrun and no other text is; the lines of a plan, each with a line feed behind it,
are read as that plan and no other text is. So overruns are told apart by their lines, and as well
by their records, and two dry runs put out the same exactly if their plans are the same. -/
theorem print_lossless :
    (∀ (text : String) (o : Overrun), Overrun.ofLine? text = some o ↔ text = o.line) ∧
      (∀ (text : String) (plan : Plan), Plan.ofPrint? text = some plan ↔
        text = String.join (plan.map fun o => o.line ++ "\n")) ∧
      (∀ a b : Overrun, (a = b ↔ a.line = b.line) ∧ (a.line = b.line ↔ a.record = b.record)) ∧
      ∀ args env fs inv bs args' env' fs' inv' bs', MakesDryRun args env fs inv bs →
        MakesDryRun args' env' fs' inv' bs' →
        ∀ outside clock spare outside' clock' spare', ∃ run plan run' plan',
          runFile fs inv.path inv.options outside spare = .ok run ∧ run.plan = .ok plan ∧
            runFile fs' inv'.path inv'.options outside' spare' = .ok run' ∧
            run'.plan = .ok plan' ∧
            ((runProcess args env fs outside clock spare).output =
              (runProcess args' env' fs' outside' clock' spare').output ↔ plan = plan') := by
  refine ⟨fun _ _ => Overrun.ofLine?_eq_some_iff, fun _ _ => Plan.ofPrint?_eq_some_iff,
    fun a b => ?_, ?_⟩
  · rw [written_inj Overrun.ofLine?_eq_some_iff, written_inj Overrun.ofRecord?_eq_some_iff]
    exact ⟨Iff.rfl, Iff.rfl⟩
  · intro args env fs inv bs args' env' fs' inv' bs' h h' outside clock spare outside' clock' spare'
    obtain ⟨run, plan, hrun, hplan, houtput⟩ := h.output_eq outside clock spare
    obtain ⟨run', plan', hrun', hplan', houtput'⟩ := h'.output_eq outside' clock' spare'
    refine ⟨run, plan, run', plan', hrun, hplan, hrun', hplan', ?_⟩
    rw [houtput, houtput', written_inj Plan.ofPrint?_eq_some_iff]

/-- A file with the content `abc`, run dry under the seed 2, where both branches fire, and under the
seed 1, where only one does. What the two put out is not the same. -/
theorem print_lossless_abc :
    let fs := FileSystem.fresh.write [0x66] [0x61, 0x62, 0x63]
    let args (seed : String) : List Bytes := [Utf8.encode seed, Utf8.encode "--dry-run", [0x66]]
    let both : Invocation := ⟨[0x66], ⟨some 2, true⟩⟩
    let single : Invocation := ⟨[0x66], ⟨some 1, true⟩⟩
    let output (seed : String) := (runProcess (args seed) {} fs (fun _ => 0) fun _ => "").output
    MakesDryRun (args "--seed=2") {} fs both [0x61, 0x62, 0x63] ∧
      MakesDryRun (args "--seed=1") {} fs single [0x61, 0x62, 0x63] ∧
      output "--seed=2" ≠ output "--seed=1" := by
  intro fs args both single output
  have hload : fs.load [0x66] = .ok [0x61, 0x62, 0x63] := by rfl
  have hboth : MakesDryRun (args "--seed=2") {} fs both [0x61, 0x62, 0x63] :=
    ⟨ok_of_toOption (by decide +kernel), ⟨.silent, rfl⟩, rfl, hload, by decide⟩
  have hsingle : MakesDryRun (args "--seed=1") {} fs single [0x61, 0x62, 0x63] :=
    ⟨ok_of_toOption (by decide +kernel), ⟨.silent, rfl⟩, rfl, hload, by decide⟩
  obtain ⟨-, -, -, hprocess⟩ := print_lossless
  obtain ⟨run, plan, run', plan', hrun, hplan, hrun', hplan', hsame⟩ :=
    hprocess _ _ _ _ _ _ _ _ _ _ hboth hsingle (fun _ => 0) (fun _ => "") [] (fun _ => 0)
      (fun _ => "") []
  refine ⟨hboth, hsingle, fun heq => ?_⟩
  obtain rfl := Except.ok.inj (hrun.symm.trans (runFile_of_load hload _ _ _))
  obtain rfl := Except.ok.inj (hrun'.symm.trans (runFile_of_load hload _ _ _))
  rw [plan_runBytes_of_lt hboth.small] at hplan
  rw [plan_runBytes_of_lt hsingle.small] at hplan'
  have hplans : Plan.due 3 (some 0x61) ((Generator.seeded 2).word 0) =
      Plan.due 3 (some 0x61) ((Generator.seeded 1).word 0) := by
    rw [hsame.mp heq] at hplan
    exact Except.ok.inj (hplan.trans hplan'.symm)
  exact absurd hplans (by decide +kernel)

end OverrunHarness
