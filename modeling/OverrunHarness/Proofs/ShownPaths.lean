import OverrunHarness.Proofs.FileHistory
import OverrunHarness.Proofs.IllFormedText
/-!
# How paths are shown

A path is raw bytes, and two reports show it as text: the wording of a load error, which a process
that gives up repeats in its last event, and the announcement of a loaded input. Both show
`Utf8.lossy` of the path, as it is (`paths_shown`), and so what is said of a path that is text is
said of that text: nothing in it is escaped, quoted or left out. Where a path is no text, the module
`IllFormedText` says what becomes of it.
-/

namespace OverrunHarness

open Utf8

/-- A run over a file that can be loaded reports the path first. -/
theorem text_head_runFile {fs : FileSystem} {path bs : Bytes} (h : fs.load path = .ok bs)
    (opts : RunOptions) (outside : Nat → UInt32) (spare : Bytes) :
    ∃ run, runFile fs path opts outside spare = .ok run ∧
      (run.events.map Event.text).head? =
        some ("DEBUG oob_harness::harness: input loaded path=" ++ lossy path ++ " len=" ++
          bs.length.repr) := by
  refine ⟨_, runFile_of_load h opts outside spare, ?_⟩
  rw [List.map_cons, Event.text_inputLoaded, List.head?_cons]

/-- **Paths are shown faithfully.** Load errors and the announcement of a loaded input show the same
text for the same path, and nothing stands between it and the words around it. A path that is the
UTF-8 form of a text is shown as that text, also if other bytes follow it. Where no character
stands, the maximal ill-formed part is shown as one mark, and what follows as it would be shown by
itself; as bytes that are not empty start in one of these ways, this says what is shown of any path.
A character that is cut short is one such part, unless a continuation byte follows; of an overlong
form, a surrogate and a code past the last one, each byte is one. What is shown is shown as it is
when it is taken for a path again. -/
theorem paths_shown :
    (∀ (path : Bytes) (fault : LoadFault),
        (LoadError.mk .opening path fault).message =
            "Failed to open " ++ lossy path ++ ": " ++ fault.text ∧
          (LoadError.mk .reading path fault).message =
            "Failed to read " ++ lossy path ++ ": " ++ fault.text) ∧
      (∀ e : LoadError, (Event.fatal e).text = "ERROR oob_harness: fatal error=" ++ e.message) ∧
      (∀ (fs : FileSystem) path opts outside spare,
        (∀ bs, fs.load path = .ok bs →
          ∃ run, runFile fs path opts outside spare = .ok run ∧
            (run.events.map Event.text).head? =
              some ("DEBUG oob_harness::harness: input loaded path=" ++ lossy path ++ " len=" ++
                bs.length.repr)) ∧
          ∀ e, fs.load path = .error e →
            runFile fs path opts outside spare = .error e ∧ e.path = path) ∧
      (∀ t, lossy (encode t) = t) ∧
      (∀ t rest, lossy (encode t ++ rest) = t ++ lossy rest) ∧
      (∀ m rest, IllFormedPart m rest → lossy (m ++ rest) = "\uFFFD" ++ lossy rest) ∧
      (∀ path : Bytes, path ≠ [] →
        (∃ c rest, path = String.utf8EncodeChar c ++ rest) ∨
          ∃ m rest, path = m ++ rest ∧ IllFormedPart m rest) ∧
      (∀ m rest, CutShort m → (∀ b ∈ rest.head?, ¬IsContinuation b) →
        lossy (m ++ rest) = "\uFFFD" ++ lossy rest) ∧
      (∀ bs rest, Misfit bs → lossy (bs ++ rest) = marks bs.length ++ lossy rest) ∧
      ∀ path, lossy (encode (lossy path)) = lossy path := by
  refine ⟨fun path fault => ⟨rfl, rfl⟩, Event.text_fatal, fun fs path opts outside spare => ?_,
    lossy_encode, lossy_encode_append, fun m rest => lossy_append_of_illFormedPart,
    fun path => exists_char_or_illFormedPart,
    fun m rest h hrest => lossy_append_of_illFormedPart (h.illFormedPart hrest),
    fun bs rest h => h.lossy_append rest, fun path => lossy_encode _⟩
  refine ⟨fun bs hload => text_head_runFile hload opts outside spare, fun e hload => ⟨?_, ?_⟩⟩
  · rw [runFile, hload]
    rfl
  · exact FileSystem.path_of_load_eq_error hload

/-- A name in which a character of three bytes lacks the last one, and which is otherwise text with
a line feed in it: a run over a file of that name, and one where there is no such file. Behind that,
the same bytes at the end of a path, and a path of an overlong form, a surrogate and a code past the
last one. -/
theorem paths_shown_cut :
    let name : Bytes := encode "ü\n" ++ ([0xE2, 0x82] ++ encode ".bin")
    let fs := FileSystem.fresh.write name [0x61, 0x62, 0x63]
    let lost : LoadError := ⟨.opening, name, .system SystemError.noSuchFile⟩
    let dry : RunOptions := ⟨some 2, true⟩
    (fs.load name = .ok [0x61, 0x62, 0x63] ∧ FileSystem.fresh.load name = .error lost ∧
        name ≠ [] ∧ CutShort [0xE2, 0x82] ∧ (∀ b ∈ (encode ".bin").head?, ¬IsContinuation b) ∧
        IllFormedPart [0xE2, 0x82] (encode ".bin") ∧ Misfit [0xC0, 0xAF] ∧
        Misfit [0xED, 0xA0, 0x80] ∧ Misfit [0xF4, 0x90, 0x80, 0x80]) ∧
      lossy name = "ü\n\uFFFD.bin" ∧
      (∃ run, runFile fs name dry (fun _ => 0) [] = .ok run ∧
        (run.events.map Event.text).head? =
          some "DEBUG oob_harness::harness: input loaded path=ü\n\uFFFD.bin len=3") ∧
      runFile .fresh name dry (fun _ => 0) [] = .error lost ∧
      lost.message = "Failed to open ü\n\uFFFD.bin: No such file or directory (os error 2)" ∧
      ((∃ c rest, name = String.utf8EncodeChar c ++ rest) ∨
        ∃ m rest, name = m ++ rest ∧ IllFormedPart m rest) ∧
      lossy [0xE2, 0x82] = "\uFFFD" ∧
      lossy ([0xC0, 0xAF] ++ ([0xED, 0xA0, 0x80] ++ ([0xF4, 0x90, 0x80, 0x80] ++ encode "\n"))) =
        "\uFFFD\uFFFD\uFFFD\uFFFD\uFFFD\uFFFD\uFFFD\uFFFD\uFFFD\n" ∧
      lossy (encode (lossy name)) = lossy name := by
  intro name fs lost dry
  have hload : fs.load name = .ok [0x61, 0x62, 0x63] := by rfl
  have hlost : FileSystem.fresh.load name = .error lost := by rfl
  have hcut : CutShort [0xE2, 0x82] := ⟨by decide, '€', by decide, by decide⟩
  have hstop : ∀ b ∈ (encode ".bin").head?, ¬IsContinuation b := by
    intro b hb h
    obtain rfl := Option.some.inj hb
    exact absurd h.1 (by decide)
  have hoverlong : Misfit [0xC0, 0xAF] :=
    .overlong '/' (.two (by decide) ⟨by decide, by decide⟩) (by decide)
  have hsurrogate : Misfit [0xED, 0xA0, 0x80] :=
    .surrogate (.three (by decide) ⟨by decide, by decide⟩ ⟨by decide, by decide⟩) (by decide)
  have hbeyond : Misfit [0xF4, 0x90, 0x80, 0x80] :=
    .beyond (.four (by decide) ⟨by decide, by decide⟩ ⟨by decide, by decide⟩
      ⟨by decide, by decide⟩) (by decide)
  obtain ⟨hmessage, -, hreport, htext, hbehind, hpart, hstart, hshort, hmisfit, hagain⟩ :=
    paths_shown
  obtain ⟨hrun, -⟩ := hreport fs name dry (fun _ => 0) []
  obtain ⟨-, hfail⟩ := hreport .fresh name dry (fun _ => 0) []
  have hill : IllFormedPart [0xE2, 0x82] (encode ".bin") := hcut.illFormedPart hstop
  have hname : lossy name = "ü\n\uFFFD.bin" := by
    rw [hbehind, hpart _ _ hill, htext]
    rfl
  have hne : name ≠ [] := List.cons_ne_nil _ _
  obtain ⟨run, hanswer, hhead⟩ := hrun _ hload
  refine ⟨⟨hload, hlost, hne, hcut, hstop, hill, hoverlong, hsurrogate, hbeyond⟩,
    hname, ⟨run, hanswer, ?_⟩, (hfail _ hlost).1, ?_, hstart name hne, ?_, ?_, hagain name⟩
  · rw [hhead, hname]
    decide +kernel
  · rw [(hmessage name _).1, hname]
    decide +kernel
  · have hend := hshort [0xE2, 0x82] [] hcut nofun
    rwa [lossy_nil, String.append_empty] at hend
  · rw [hmisfit _ _ hoverlong, hmisfit _ _ hsurrogate, hmisfit _ _ hbeyond, htext]
    decide +kernel

end OverrunHarness
