import OverrunHarness.Log.Record
/-!
# What a record shows

How each event reads, in one line and as a record of a log.

An event has one text (`Event.text`), and its plain record is that text with the time in front of it
and the level set flush right (`Event.record_plain`). A coloured record has the same parts as the
plain one, some of them set off (`Event.record_eq_parts`): between its parts a terminal is told how
to show them, and nothing is said in other words.
-/

namespace OverrunHarness

namespace Event

/-! ### Events in one line -/

theorem text_inputLoaded (path : Bytes) (len : Nat) :
    (inputLoaded path len).text =
      "DEBUG oob_harness::harness: input loaded path=" ++ Utf8.lossy path ++ " len=" ++
        len.repr := by
  apply String.ext
  simp [text, level, Level.name, target, message, fields]

theorem text_evenLength (len : Nat) :
    (evenLength len).text =
      "TRACE oob_harness::trigger: even length, no trigger evaluated len=" ++ len.repr := by
  apply String.ext
  simp [text, level, Level.name, target, message, fields]

theorem text_randomDrawn (len : Nat) (residue : UInt32) :
    (randomDrawn len residue).text =
      "DEBUG oob_harness::trigger: random branch drawn len=" ++ len.repr ++ " residue=" ++
        residue.toNat.repr := by
  apply String.ext
  simp [text, level, Level.name, target, message, fields]

theorem text_writingPastEnd (branch : Branch) (offset len : Nat) :
    (writingPastEnd branch offset len).text =
      "WARN oob_harness::harness: writing past end of input buffer branch=\"" ++ branch.name ++
        "\" offset=" ++ offset.repr ++ " len=" ++ len.repr := by
  apply String.ext
  simp [text, level, Level.name, target, message, fields]

theorem text_fatal (e : LoadError) :
    (fatal e).text = "ERROR oob_harness: fatal error=" ++ e.message := by
  apply String.ext
  simp [text, level, Level.name, target, message, fields]

/-! ### Records -/

/-- A plain record is the text of the event behind the time, with the level flush right. -/
theorem record_plain (e : Event) (time : String) :
    e.record .plain time =
      time ++ " " ++ String.ofList (List.replicate (5 - e.level.name.length) ' ') ++ e.text ++
        "\n" := by
  apply String.ext
  simp [record, text, LogStyle.field, Level.column]

end Event

theorem Level.length_name (l : Level) : l.name.length = if l = .warn ∨ l = .info then 4 else 5 := by
  cases l <;> rfl

/-- How the plain records of events read that carry a given time. -/
structure RecordsRead (time : String) : Prop where
  inputLoaded (path : Bytes) (len : Nat) : (Event.inputLoaded path len).record .plain time =
    time ++ " DEBUG oob_harness::harness: input loaded path=" ++ Utf8.lossy path ++ " len=" ++
      len.repr ++ "\n"
  evenLength (len : Nat) : (Event.evenLength len).record .plain time =
    time ++ " TRACE oob_harness::trigger: even length, no trigger evaluated len=" ++ len.repr ++
      "\n"
  randomDrawn (len : Nat) (residue : UInt32) : (Event.randomDrawn len residue).record .plain time =
    time ++ " DEBUG oob_harness::trigger: random branch drawn len=" ++ len.repr ++ " residue=" ++
      residue.toNat.repr ++ "\n"
  writingPastEnd (branch : Branch) (offset len : Nat) :
    (Event.writingPastEnd branch offset len).record .plain time =
      time ++ "  WARN oob_harness::harness: writing past end of input buffer branch=\"" ++
        branch.name ++ "\" offset=" ++ offset.repr ++ " len=" ++ len.repr ++ "\n"
  fatal (e : LoadError) : (Event.fatal e).record .plain time =
    time ++ " ERROR oob_harness: fatal error=" ++ e.message ++ "\n"

theorem recordsRead (time : String) : RecordsRead time where
  inputLoaded path len := by
    rw [Event.record_plain, Event.text_inputLoaded, Level.length_name]
    apply String.ext
    simp [Event.level]
  evenLength len := by
    rw [Event.record_plain, Event.text_evenLength, Level.length_name]
    apply String.ext
    simp [Event.level]
  randomDrawn len residue := by
    rw [Event.record_plain, Event.text_randomDrawn, Level.length_name]
    apply String.ext
    simp [Event.level]
  writingPastEnd branch offset len := by
    rw [Event.record_plain, Event.text_writingPastEnd, Level.length_name]
    apply String.ext
    simp [Event.level]
  fatal e := by
    rw [Event.record_plain, Event.text_fatal, Level.length_name]
    apply String.ext
    simp [Event.level]

/-! ### Colours -/

/-- A text in parts, each of which may be set off. -/
abbrev PaintedText := List (Option Paint × String)

namespace PaintedText

/-- The text of the parts. -/
def plain (parts : PaintedText) : String := String.join (parts.map Prod.snd)

/-- The text with the sequences that set its parts off. -/
def coloured (parts : PaintedText) : String :=
  String.join (parts.map fun (paint, part) => Paint.apply paint.toList part)

end PaintedText

/-- The parts of a record. -/
def Event.parts (e : Event) (time : String) : PaintedText :=
  [(some .dimmed, time), (none, " "), (some e.level.paint, e.level.column), (none, " "),
    (some .dimmed, e.target), (some .dimmed, ":"), (none, " "), (none, e.message)] ++
  (e.fields.flatMap fun (name, value) =>
    [(none, " "), (some .italic, name), (some .dimmed, "="), (none, value)]) ++ [(none, "\n")]

/-- Plain or coloured, a record has the same parts. -/
theorem Event.record_eq_parts (e : Event) (time : String) :
    e.record .plain time = (e.parts time).plain ∧
      e.record .coloured time = (e.parts time).coloured := by
  constructor
  · apply String.ext
    simp [record, parts, PaintedText.plain, LogStyle.field, List.flatMap_map, List.map_flatMap,
      List.flatMap_assoc]
  · apply String.ext
    simp [record, parts, PaintedText.coloured, LogStyle.paint, LogStyle.field, List.flatMap_map,
      List.map_flatMap, List.flatMap_assoc]

end OverrunHarness
