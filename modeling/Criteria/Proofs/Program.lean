import Criteria.Program
import Criteria.Proofs.Json.Grammar
import Criteria.Proofs.Json.Write
import Criteria.Proofs.Service.Status

/-!
The program at work. The input is cut at its line feeds, what follows the last one being a line too,
and each line that is not blank is answered by one line, in the state that the lines before it have
left. An answer is a JSON text, in which no line feed stands, so whoever reads the output line by
line gets one answer to each of these lines, in their order.
-/

set_option autoImplicit false
set_option relaxedAutoImplicit false

namespace Criteria

/-- The service after some lines, where the `n`th call takes `fresh n` from outside. -/
def Service.afterLines (fresh : Nat → Fresh) (s : Service) (lines : List (List UInt8)) : Service :=
  lines.zipIdx.foldl (fun s p ↦ (s.handleLine (fresh p.2) p.1).2) s

theorem Service.afterLines_concat (fresh : Nat → Fresh) (s : Service)
    (before : List (List UInt8)) (line : List UInt8) :
    s.afterLines fresh (before ++ [line]) =
      ((s.afterLines fresh before).handleLine (fresh before.length) line).2 := by
  simp [afterLines, List.zipIdx_append]

namespace Program

/-! ### Lines of bytes -/

variable {body tail input : List UInt8}

/-- The lines of an input are the first one and those of the rest. -/
theorem linesFrom_eq_cons (done : List UInt8) (h : input ≠ []) :
    linesFrom done input =
      (done.reverse ++ (takeLine input).1) :: lines (takeLine input).2 := by
  induction input generalizing done with
  | nil => exact absurd rfl h
  | cons b rest ih =>
    rw [linesFrom, takeLine]
    by_cases hb : b = 0x0A
    · rw [if_pos hb, if_pos hb, List.reverse_cons]
      rfl
    · rw [if_neg hb, if_neg hb]
      by_cases hrest : rest = []
      · subst hrest
        simp [linesFrom, takeLine, lines]
      · rw [ih (b :: done) hrest]
        simp

theorem lines_eq_cons (h : input ≠ []) :
    lines input = (takeLine input).1 :: lines (takeLine input).2 :=
  linesFrom_eq_cons [] h

theorem takeLine_ended (hbody : 0x0A ∉ body) (rest : List UInt8) :
    takeLine (ended body ++ rest) = (ended body, rest) := by
  induction body with
  | nil => rfl
  | cons b body ih =>
    obtain ⟨hb, hbody⟩ := not_or.mp (mt List.mem_cons.mpr hbody)
    change takeLine (b :: (ended body ++ rest)) = (b :: ended body, rest)
    rw [takeLine, if_neg (Ne.symm hb), ih hbody]
    rfl

theorem takeLine_of_notMem (htail : 0x0A ∉ tail) : takeLine tail = (tail, []) := by
  induction tail with
  | nil => rfl
  | cons b tail ih =>
    obtain ⟨hb, htail⟩ := not_or.mp (mt List.mem_cons.mpr htail)
    rw [takeLine, if_neg (Ne.symm hb), ih htail]
    rfl

theorem lines_ended_append (hbody : 0x0A ∉ body) (rest : List UInt8) :
    lines (ended body ++ rest) = ended body :: lines rest := by
  rw [lines_eq_cons (by simp [ended]), takeLine_ended hbody]

theorem lines_of_notMem (htail : 0x0A ∉ tail) :
    lines tail = if tail = [] then [] else [tail] := by
  split
  · rename_i h
    rw [h]
    rfl
  · rename_i h
    rw [lines_eq_cons h, takeLine_of_notMem htail]
    rfl

/-- Lines that are put together are cut again where they were. -/
theorem lines_flatMap_ended {bodies : List (List UInt8)} (hbodies : ∀ body ∈ bodies, 0x0A ∉ body)
    (rest : List UInt8) :
    lines (bodies.flatMap ended ++ rest) = bodies.map ended ++ lines rest := by
  induction bodies with
  | nil => rfl
  | cons body bodies ih =>
    obtain ⟨hbody, hbodies⟩ := List.forall_mem_cons.mp hbodies
    rw [List.flatMap_cons, List.append_assoc, lines_ended_append hbody, ih hbodies]
    rfl

/-- Any bytes are lines with a line feed each, and a rest without one. -/
theorem exists_bodies (input : List UInt8) : ∃ (bodies : List (List UInt8)) (tail : List UInt8),
    input = bodies.flatMap ended ++ tail ∧ (∀ body ∈ bodies, 0x0A ∉ body) ∧ 0x0A ∉ tail := by
  induction input with
  | nil => exact ⟨[], [], rfl, by simp, by simp⟩
  | cons b input ih =>
    obtain ⟨bodies, tail, rfl, hbodies, htail⟩ := ih
    by_cases hb : b = 0x0A
    · subst hb
      exact ⟨[] :: bodies, tail, rfl, List.forall_mem_cons.mpr ⟨by simp, hbodies⟩, htail⟩
    · have hcons {body : List UInt8} (hbody : 0x0A ∉ body) : 0x0A ∉ b :: body := by
        rw [List.mem_cons, not_or]
        exact ⟨Ne.symm hb, hbody⟩
      -- The byte goes to the first line that ends, if there is one.
      cases bodies with
      | nil => exact ⟨[], b :: tail, rfl, by simp, hcons htail⟩
      | cons body bodies =>
        obtain ⟨hbody, hbodies⟩ := List.forall_mem_cons.mp hbodies
        exact ⟨(b :: body) :: bodies, tail, rfl,
          List.forall_mem_cons.mpr ⟨hcons hbody, hbodies⟩, htail⟩

/-! ### The answer to a line -/

/-- Whether a line is UTF-8 and blank. -/
def isBlankLine (line : List UInt8) : Bool :=
  match Text.decodeUtf8 line with
  | .error _ => false
  | .ok cs => cs.all Text.isBlank

theorem isBlankLine_iff {line : List UInt8} : isBlankLine line = true ↔
    ∃ text : String, line = text.toUTF8.data.toList ∧
      ∀ c ∈ text.toList, Text.isBlank c = true := by
  unfold isBlankLine
  constructor
  · intro h
    cases hdecode : Text.decodeUtf8 line with
    | error fault => simp [hdecode] at h
    | ok cs =>
      refine ⟨String.ofList cs, Text.decodeUtf8_eq_ok_iff.mp hdecode, ?_⟩
      simpa [hdecode] using h
  · rintro ⟨text, rfl, hblank⟩
    rw [Text.decodeUtf8_toUTF8]
    simpa using hblank

/-- Just the blank lines have no answer. -/
theorem handleLine_eq_none_iff_isBlankLine {s : Service} {fresh : Fresh} {line : List UInt8} :
    (s.handleLine fresh line).1 = none ↔ isBlankLine line = true :=
  Service.handleLine_eq_none_iff.trans isBlankLine_iff.symm

/-- No line feed stands in a JSON text. -/
theorem lineFeed_notMem_of_isValue {text : String} (h : Json.IsValue text.toList) :
    0x0A ∉ text.toUTF8.data.toList := by
  intro hmem
  obtain ⟨c, hc, hfeed⟩ := Text.exists_char_of_mem_toUTF8 hmem (by decide)
  have hprints := h.prints c hc
  rw [hfeed] at hprints
  exact absurd hprints (by decide)

/-! ### The loop -/

/-- The answers as texts to the lines of a run, the first line being the one with this number. -/
def answerLines (fresh : Nat → Fresh) (micros : Nat → Nat) (s : Service) (turn : Nat) :
    List (List UInt8) → List String
  | [] => []
  | line :: rest =>
    ((s.handleLine (fresh turn) line).1.map (answerLine (micros turn))).toList ++
      answerLines fresh micros (s.handleLine (fresh turn) line).2 (turn + 1) rest

variable {fresh : Nat → Fresh} {micros : Nat → Nat}

theorem transcript_eq_flatMap (fresh : Nat → Fresh) (micros : Nat → Nat) (s : Service)
    (turn : Nat) (input : List UInt8) :
    transcript fresh micros s turn input =
      (answerLines fresh micros s turn (lines input)).flatMap
        fun text ↦ ended text.toUTF8.data.toList := by
  fun_induction transcript fresh micros s turn input with
  | case1 => rfl
  | case2 s turn input h next hline ih =>
    rw [ih, lines_eq_cons h, answerLines, hline]
    rfl
  | case3 s turn input h response next hline ih =>
    rw [ih, lines_eq_cons h, answerLines, hline]
    rfl

theorem isValue_of_mem_answerLines {s : Service} {turn : Nat} {lines : List (List UInt8)}
    {text : String} (h : text ∈ answerLines fresh micros s turn lines) :
    Json.IsValue text.toList := by
  induction lines generalizing s turn with
  | nil => cases h
  | cons line lines ih =>
    rw [answerLines, List.mem_append, Option.mem_toList, Option.map_eq_some_iff] at h
    rcases h with ⟨response, -, rfl⟩ | h
    · exact Json.isValue_write _
    · exact ih h

/-- Where each answer takes as long, the texts are those of the answers. -/
theorem answerLines_const (m : Nat) (s : Service) (turn : Nat) (lines : List (List UInt8)) :
    answerLines fresh (fun _ ↦ m) s turn lines =
      (answers fresh s turn lines).map (answerLine m) := by
  induction lines generalizing s turn with
  | nil => rfl
  | cons line lines ih =>
    simp only [answerLines, answers, ih, List.map_append]
    cases (s.handleLine (fresh turn) line).1 <;> rfl

/-- A line that is not blank is answered in the state that the lines before it have left. -/
theorem forall₂_answerLines (fresh : Nat → Fresh) (micros : Nat → Nat) (s : Service)
    (before lines : List (List UInt8)) :
    List.Forall₂
      (fun p text ↦ ∃ response,
        ((s.afterLines fresh ((before ++ lines).take p.2)).handleLine (fresh p.2) p.1).1 =
          some response ∧ text = answerLine (micros p.2) response)
      ((lines.zipIdx before.length).filter fun p ↦ !isBlankLine p.1)
      (answerLines fresh micros (s.afterLines fresh before) before.length lines) := by
  -- The lines still to come become fewer, and those before them more, by one at a time.
  induction lines generalizing before with
  | nil => exact .nil
  | cons line lines ih =>
    have hlater := ih (before ++ [line])
    rw [List.append_assoc, List.singleton_append, List.length_append, List.length_singleton,
      Service.afterLines_concat] at hlater
    rw [List.zipIdx_cons, answerLines]
    cases hline : ((s.afterLines fresh before).handleLine (fresh before.length) line).1 with
    | none =>
      have hblank := handleLine_eq_none_iff_isBlankLine.mp hline
      rw [List.filter_cons_of_neg (by simp [hblank])]
      exact hlater
    | some response =>
      have hblank : ¬isBlankLine line = true := by
        rw [← handleLine_eq_none_iff_isBlankLine, hline]
        simp
      rw [List.filter_cons_of_pos (by simp [hblank])]
      refine .cons ⟨response, ?_, rfl⟩ hlater
      rwa [List.take_left]

/-- Lines are answered in turn, one line for one. The input is cut at its line feeds, and what
follows the last one is a line too. A line that is UTF-8 and blank has no answer, and each other
line has one, which is given in the state that all lines before it have left, whatever they were.
Who cuts what is written at its line feeds gets just these answers in their order. Each of them is a
JSON text without a line feed, and reads back as the answer if its numbers can be written. -/
theorem lines_are_answered_in_turn (fresh : Nat → Fresh) (micros : Nat → Nat) (s : Service)
    (input : List UInt8) :
    (∃ (bodies : List (List UInt8)) (tail : List UInt8),
      (∀ body ∈ bodies, 0x0A ∉ body) ∧ 0x0A ∉ tail ∧ input = bodies.flatMap ended ++ tail ∧
      lines input = bodies.map ended ++ if tail = [] then [] else [tail]) ∧
    (∀ line, isBlankLine line = true ↔ ∃ text : String, line = text.toUTF8.data.toList ∧
      ∀ c ∈ text.toList, Text.isBlank c = true) ∧
    ∃ texts : List String,
      transcript fresh micros s 0 input =
        texts.flatMap (fun text ↦ ended text.toUTF8.data.toList) ∧
      lines (transcript fresh micros s 0 input) =
        texts.map (fun text ↦ ended text.toUTF8.data.toList) ∧
      List.Forall₂
        (fun p text ↦ ∃ response,
          ((s.afterLines fresh ((lines input).take p.2)).handleLine (fresh p.2) p.1).1 =
            some response ∧ text = answerLine (micros p.2) response)
        ((lines input).zipIdx.filter fun p ↦ !isBlankLine p.1) texts ∧
      (∀ text ∈ texts, Json.IsValue text.toList ∧ 0x0A ∉ text.toUTF8.data.toList) ∧
      (∀ m, (∀ turn, micros turn = m) →
        texts = (answers fresh s 0 (lines input)).map (answerLine m)) ∧
      ∀ (m : Nat) (response : Response), (response.toJson m).IsWritable →
        Json.read? none (answerLine m response) = some (response.toJson m) := by
  obtain ⟨bodies, tail, hinput, hbodies, htail⟩ := exists_bodies input
  have hlines : lines input = bodies.map ended ++ if tail = [] then [] else [tail] := by
    rw [hinput, lines_flatMap_ended hbodies, lines_of_notMem htail]
  have hanswered := forall₂_answerLines fresh micros s [] (lines input)
  have htranscript := transcript_eq_flatMap fresh micros s 0 input
  have htexts (text : String) (h : text ∈ answerLines fresh micros s 0 (lines input)) :
      Json.IsValue text.toList ∧ 0x0A ∉ text.toUTF8.data.toList :=
    ⟨isValue_of_mem_answerLines h, lineFeed_notMem_of_isValue (isValue_of_mem_answerLines h)⟩
  refine ⟨⟨bodies, tail, hbodies, htail, hinput, hlines⟩, fun _ ↦ isBlankLine_iff, _, htranscript,
    ?_, hanswered, htexts, ?_, fun m response ↦ Json.read?_write⟩
  · have hcut := lines_flatMap_ended (List.forall_mem_map.mpr fun text h ↦ (htexts text h).2) []
    rw [List.flatMap_map, List.append_nil, List.map_map] at hcut
    rw [htranscript, hcut]
    exact List.append_nil _
  · intro m hm
    obtain rfl : micros = fun _ ↦ m := funext hm
    exact answerLines_const m s 0 (lines input)

/-- A blank line, a byte that is no UTF-8, a rule with line feeds in it, and a half of a request. -/
def fourLines : List UInt8 :=
  "\t\r\n".toUTF8.data.toList ++ 0xFF :: 0x0A ::
    "[\"create\",\"a = '\\n\\n'\"]\n[\"list\"".toUTF8.data.toList

/-- The first of the four lines has no answer, and the last one, which does not end, has one. -/
theorem lines_are_answered_in_turn_of_four :
    ∃ texts : List String, texts.length = 3 ∧
      transcript (fun _ ↦ ⟨"\n", ⟨0, 0⟩⟩) (fun _ ↦ 7) ⟨.ofLimits .standard, true⟩ 0 fourLines =
        texts.flatMap (fun text ↦ ended text.toUTF8.data.toList) ∧
      texts = (answers (fun _ ↦ ⟨"\n", ⟨0, 0⟩⟩) ⟨.ofLimits .standard, true⟩ 0
        (lines fourLines)).map (answerLine 7) ∧
      (∀ text ∈ texts, Json.IsValue text.toList ∧ 0x0A ∉ text.toUTF8.data.toList) ∧
      Json.read? none (answerLine 7 (.failed (.unknownRule "\n"))) =
        some ((Response.failed (.unknownRule "\n")).toJson 7) := by
  obtain ⟨-, -, texts, htranscript, -, hanswered, htexts, hanswers, hread⟩ :=
    lines_are_answered_in_turn (fun _ ↦ ⟨"\n", ⟨0, 0⟩⟩) (fun _ ↦ 7) ⟨.ofLimits .standard, true⟩
      fourLines
  have hserved : ((lines fourLines).zipIdx.filter fun p ↦ !isBlankLine p.1).length = 3 := by
    decide +kernel
  refine ⟨texts, hanswered.length_eq.symm.trans hserved, htranscript, hanswers 7 fun _ ↦ rfl,
    htexts, hread 7 _ ?_⟩
  simp [Response.toJson, Response.contents, Response.status, Fault.position?, Fault.status,
    Json.IsWritable, Json.MembersWritable]

end Program

end Criteria
