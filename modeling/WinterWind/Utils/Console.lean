import WinterWind.Basic
import WinterWind.Library.Lines

/-!
# The console (`src/core/console.cpp`)

The loop of `ConsoleThread::run`, without readline: the wait for input, `fgets` on a buffer of 256
bytes, the scan for the end of the line, and the command for the handler.

* `kb_hit_return` asks the descriptor, while `fgets` hands out what stdio has read of it before. A
  line that stdio holds is no input to the wait.
* What the reads of the descriptor return is given, so time is left out: the wait ends when there is
  a read to come, or the descriptor is at its end. A wait that does not end is a turn that changes
  nothing.
* The prompt is left out. The loop ends when the thread is stopped, so a run is a number of turns.

Results:
* `takeLine_lines`: what a turn takes of lines without CR that fit into the buffer.
* `enqueued_bounded`: no command is longer than the buffer, or has a CR.
* **`oneCommandPerLine_iff`**: the commands are the lines exactly if no line is longer than 255
  bytes or has a CR before its end, and none is left in the buffer of stdio when nothing more comes.
-/

namespace WinterWind.Utils

open Library

/-- `CommandToProcess`. -/
structure CommandToProcess where
  channelId : UInt16
  who : Bytes := []
  command : Bytes
  deriving DecidableEq

/-- The standard input: what stdio has read and not handed out, what the reads of the descriptor
return that are still to come, and whether the descriptor is at its end after these. -/
structure Stdin where
  buffer : Bytes
  reads : List Bytes
  closed : Bool

/-- The standard input of a `ConsoleThread`, and what it has given its handler. -/
structure Console where
  stdin : Stdin
  enqueued : List CommandToProcess

namespace Stdin

/-- All that is still to be handed out. -/
def text (s : Stdin) : Bytes := s.buffer ++ s.reads.flatten

/-- `kb_hit_return`, as it answers in the end: a read of the descriptor would return. -/
def kbHitReturn (s : Stdin) : Bool := !s.reads.isEmpty || s.closed

/-- `fgets`, with the standard input after it: a null pointer at the end of the input. There is no
result if it waits for a read that does not return. -/
def fgets (size : Nat) (s : Stdin) : Option (Option Bytes × Stdin) :=
  let r := takeReads 10 (size - 1) s.buffer s.reads
  if !s.closed && !r.1.contains 10 && decide (r.1.length < size - 1) then none
  else some (if r.1.isEmpty then none else some r.1, ⟨r.2.1, r.2.2, s.closed⟩)

end Stdin

namespace Console

/-- `command_str`, cut at its first CR or LF. -/
def commandOf (commandStr : Bytes) : Bytes :=
  commandStr.takeWhile fun c => c != 0 && c != 13 && c != 10

/-- A turn of the loop. -/
def turn (s : Console) : Console :=
  if s.stdin.kbHitReturn then
    match s.stdin.fgets 256 with
    | none => s
    | some (none, stdin) => { s with stdin := stdin }
    | some (some commandStr, stdin) =>
      let command := commandOf commandStr
      { stdin := stdin
        enqueued :=
          if command.isEmpty then s.enqueued
          else s.enqueued ++ [{ channelId := 1, command := command }] }
  else s

/-- `ConsoleThread::run`, stopped after some turns. -/
def run : Nat → Console → Console
  | 0, s => s
  | turns + 1, s => run turns s.turn

/-! ## Lines -/

/-- A line of the input: its text, and whether CR LF ends it or LF alone. -/
structure Line where
  text : Bytes
  cr : Bool
  no_lf : 10 ∉ text
  no_nul : 0 ∉ text
  no_cr : cr = false → text.getLast? ≠ some 13

/-- The line, up to its LF. -/
def Line.content (l : Line) : Bytes := l.text ++ if l.cr then [13] else []

/-- The input that is made of the lines. -/
def input (lines : List Line) : Bytes := unlines 10 (lines.map Line.content)

/-- The commands for the lines that are not empty. -/
def commands (lines : List Line) : List CommandToProcess :=
  (lines.filter fun l => !l.text.isEmpty).map fun l => { channelId := 1, command := l.text }

/-- How lines come: what each read returns, and whether the input ends or stays open then. -/
structure Delivery (lines : List Line) where
  reads : List Bytes
  closed : Bool
  read_ne : ∀ read ∈ reads, read ≠ []
  flatten_reads : reads.flatten = input lines

/-- A console that has not read anything. -/
def Delivery.start {lines : List Line} (d : Delivery lines) : Console :=
  ⟨⟨[], d.reads, d.closed⟩, []⟩

/-- After some turns, the commands are those for the lines, and stay so. -/
def OneCommandPerLine {lines : List Line} (d : Delivery lines) : Prop :=
  ∃ n, ∀ turns, n ≤ turns → (run turns d.start).enqueued = commands lines

/-- A line that the buffer can hold, without CR. -/
def Line.Short (l : Line) : Prop := l.text.length ≤ 255 ∧ 13 ∉ l.text

/-- Nothing but the ends of lines. -/
def OnlyEnds (s : Bytes) : Prop := ∀ c ∈ s, c = 13 ∨ c = 10

instance (s : Bytes) : Decidable (OnlyEnds s) :=
  inferInstanceAs (Decidable (∀ c ∈ s, c = 13 ∨ c = 10))

/-- After a LF that it brings, the last read brings no line that is not empty. -/
def LastReadDrained (reads : List Bytes) : Prop :=
  ∀ last, reads.getLast? = some last → ∀ p q, last = p ++ 10 :: q → OnlyEnds q

/-! ## A turn -/

theorem run_add (m n : Nat) (s : Console) : run (m + n) s = run n (run m s) := by
  induction m generalizing s with
  | zero => rw [Nat.zero_add, run]
  | succ m ih => rw [Nat.succ_add, run, run, ih]

theorem run_of_turn {s : Console} (h : s.turn = s) (turns : Nat) : run turns s = s := by
  induction turns with
  | zero => rfl
  | succ turns ih => rw [run, h, ih]

/-- The command for what `fgets` gives, if it is not empty. -/
def commandFor (chunk : Bytes) : List CommandToProcess :=
  if (commandOf chunk).isEmpty then [] else [{ channelId := 1, command := commandOf chunk }]

/-- **A turn that reads** hands out a line, or what the buffer holds of one. -/
theorem turn_chunk {s : Console} {chunk rest : Bytes} (hhit : s.stdin.kbHitReturn = true)
    (htake : takeLine 10 255 s.stdin.text = (chunk, rest)) (hne : chunk ≠ [])
    (hcomplete : 10 ∈ chunk ∨ chunk.length = 255) :
    s.turn = ⟨⟨(takeReads 10 255 s.stdin.buffer s.stdin.reads).2.1,
        (takeReads 10 255 s.stdin.buffer s.stdin.reads).2.2, s.stdin.closed⟩,
      s.enqueued ++ commandFor chunk⟩ := by
  have hchunk : (takeReads 10 255 s.stdin.buffer s.stdin.reads).1 = chunk :=
    (takeReads_fst _ _ _).trans (congrArg Prod.fst htake)
  have hwaits : (!s.stdin.closed && !chunk.contains 10 && decide (chunk.length < 255)) = false := by
    rcases hcomplete with hmem | hlength
    · simp [hmem]
    · simp [hlength]
  have hempty : chunk.isEmpty = false := List.isEmpty_eq_false_iff.mpr hne
  unfold turn Stdin.fgets
  rw [if_pos hhit]
  simp only [Nat.add_one_sub_one, hchunk, hwaits, hempty, Bool.false_eq_true, if_false, commandFor]
  split
  · rw [List.append_nil]
  · rfl

theorem text_turn_chunk {s : Console} {chunk rest : Bytes} (hhit : s.stdin.kbHitReturn = true)
    (htake : takeLine 10 255 s.stdin.text = (chunk, rest)) (hne : chunk ≠ [])
    (hcomplete : 10 ∈ chunk ∨ chunk.length = 255) : s.turn.stdin.text = rest := by
  rw [turn_chunk hhit htake hne hcomplete, Stdin.text]
  exact congrArg Prod.snd ((takeReads_eq _ _ _).trans htake)

/-- When the descriptor stays open and nothing more comes, the wait does not end. -/
theorem turn_open {s : Console} (hreads : s.stdin.reads = []) (hopen : s.stdin.closed = false) :
    s.turn = s := by
  have hhit : ¬s.stdin.kbHitReturn = true := by simp [Stdin.kbHitReturn, hreads, hopen]
  rw [turn, if_neg hhit]

/-- At the end of the input nothing more is done. -/
theorem turn_end {s : Console} (hbuffer : s.stdin.buffer = []) (hreads : s.stdin.reads = [])
    (hclosed : s.stdin.closed = true) : s.turn = s := by
  obtain ⟨⟨buffer, reads, closed⟩, enqueued⟩ := s
  obtain rfl : buffer = [] := hbuffer
  obtain rfl : reads = [] := hreads
  obtain rfl : closed = true := hclosed
  rfl

/-! ## What a turn takes of lines -/

/-- What may be left of the end of a line that did not fit. -/
def IsEnd (e : Bytes) : Prop := e = [] ∨ e = [10] ∨ e = [13, 10]

theorem IsEnd.onlyEnds {e : Bytes} (he : IsEnd e) : OnlyEnds e := by
  intro c hc
  rcases he with rfl | rfl | rfl
  · exact absurd hc List.not_mem_nil
  · exact .inr (List.mem_singleton.mp hc)
  · exact List.mem_pair.mp hc

/-- The end of a line, whole. -/
theorem isEnd_cr (cr : Bool) : IsEnd ((if cr then [13] else []) ++ [10]) := by
  cases cr
  · exact .inr (.inl rfl)
  · exact .inr (.inr rfl)

theorem input_cons (l : Line) (lines : List Line) :
    input (l :: lines) = l.content ++ 10 :: input lines := by
  simp [input, unlines]

theorem commands_cons (l : Line) (lines : List Line) :
    commands (l :: lines) = commands [l] ++ commands lines := by
  rw [commands, ← List.singleton_append, List.filter_append, List.map_append]
  rfl

theorem Line.Short.plain {l : Line} (h : l.Short) : ∀ c ∈ l.text, c ≠ 0 ∧ c ≠ 13 ∧ c ≠ 10 := by
  intro c hc
  exact ⟨fun e => l.no_nul (e ▸ hc), fun e => h.2 (e ▸ hc), fun e => l.no_lf (e ▸ hc)⟩

theorem Line.lf_notMem_content (l : Line) : 10 ∉ l.content := by
  rw [Line.content, List.mem_append, not_or]
  refine ⟨l.no_lf, ?_⟩
  cases l.cr <;> decide

/-- The command for a chunk that starts with the text of a line. -/
theorem commandFor_text {l : Line} (h : l.Short) {tail : Bytes} (htail : OnlyEnds tail) :
    commandFor (l.text ++ tail) = commands [l] := by
  have hnil : tail.takeWhile (fun c => c != 0 && c != 13 && c != 10) = [] := by
    cases tail with
    | nil => rfl
    | cons c tail => rcases htail c List.mem_cons_self with rfl | rfl <;> rfl
  have hcommand : commandOf (l.text ++ tail) = l.text := by
    rw [commandOf, List.takeWhile_append_of_pos, hnil, List.append_nil]
    intro c hc
    simpa [and_assoc] using h.plain c hc
  rw [commandFor, hcommand, commands]
  cases hempty : l.text.isEmpty with
  | true => simp [hempty]
  | false => simp [hempty]

/-- What a turn takes of the end of a line and of lines, and what it leaves. -/
structure Takes (e : Bytes) (lines : List Line) (chunk e' : Bytes) (left : List Line) : Prop where
  take : takeLine 10 255 (e ++ input lines) = (chunk, e' ++ input left)
  ne_nil : chunk ≠ []
  isEnd : IsEnd e'
  complete : 10 ∈ chunk ∨ chunk.length = 255 ∧ e' ≠ []
  subset : left ⊆ lines
  commands : commandFor chunk ++ commands left = commands lines

/-- The end of a line that is left is taken alone. -/
theorem takes_end {e : Bytes} (he : IsEnd e) (hne : e ≠ []) (lines : List Line) :
    Takes e lines e [] lines := by
  rcases he with rfl | rfl | rfl
  · exact absurd rfl hne
  · exact ⟨rfl, hne, .inl rfl, .inl (by decide), List.Subset.refl _, rfl⟩
  · exact ⟨rfl, hne, .inl rfl, .inl (by decide), List.Subset.refl _, rfl⟩

/-- **A line that fits** is taken, with its end unless the buffer is full before. -/
theorem takes_line {l : Line} (h : l.Short) (lines : List Line) :
    ∃ chunk e', Takes [] (l :: lines) chunk e' lines := by
  have hend : IsEnd ((if l.cr then [13] else []) ++ [10]) := isEnd_cr l.cr
  have htake : ([] : Bytes) ++ input (l :: lines) = l.content ++ 10 :: input lines :=
    input_cons l lines
  have hsubset := List.subset_cons_self l lines
  by_cases hfits : l.content.length < 255
  · -- the line and its end fit
    refine ⟨l.text ++ ((if l.cr then [13] else []) ++ [10]), [], ?_, by simp, .inl rfl,
      .inl (by simp), hsubset, ?_⟩
    · rw [htake, takeLine_line l.lf_notMem_content hfits, Line.content, List.append_assoc]
      rfl
    · rw [commandFor_text h hend.onlyEnds, ← commands_cons]
  · by_cases hlength : l.text.length = 255
    · -- the text fills the buffer, and its end is left
      have hne : l.text ≠ [] := by
        intro hnil
        rw [hnil] at hlength
        cases hlength
      refine ⟨l.text, (if l.cr then [13] else []) ++ [10], ?_, hne, hend,
        .inr ⟨hlength, by simp⟩, hsubset, ?_⟩
      · rw [htake, Line.content, List.append_assoc, ← hlength, takeLine_full l.no_lf,
          List.append_assoc]
        rfl
      · have hcommand : commandFor (l.text ++ []) = commands [l] := commandFor_text h nofun
        rw [List.append_nil] at hcommand
        rw [hcommand, ← commands_cons]
    · -- the text and its CR fill it, and the LF is left
      have hshort := h.1
      have hcr : l.cr = true := by
        by_contra hn
        rw [Line.content, if_neg hn, List.append_nil] at hfits
        omega
      have hcontent : l.content = l.text ++ [13] := by rw [Line.content, if_pos hcr]
      have hfull : (l.text ++ [13]).length = 255 := by
        rw [hcontent, List.length_append, List.length_singleton] at hfits
        rw [List.length_append, List.length_singleton]
        omega
      have hlf := l.lf_notMem_content
      rw [hcontent] at hlf
      refine ⟨l.text ++ [13], [10], ?_, by simp, .inr (.inl rfl), .inr ⟨hfull, by simp⟩, hsubset,
        ?_⟩
      · rw [htake, hcontent, ← hfull, takeLine_full hlf]
        rfl
      · have hcr : OnlyEnds [13] := fun _ hc => .inl (List.mem_singleton.mp hc)
        rw [commandFor_text h hcr, ← commands_cons]

/-- **What a turn takes of lines** that fit, while there is something left. -/
theorem takeLine_lines {lines : List Line} (h : ∀ l ∈ lines, l.Short) {e : Bytes} (he : IsEnd e)
    (hne : e ++ input lines ≠ []) : ∃ chunk e' left, Takes e lines chunk e' left := by
  by_cases hnil : e = []
  · subst hnil
    cases lines with
    | nil => exact absurd rfl hne
    | cons l lines =>
      obtain ⟨chunk, e', htakes⟩ := takes_line (h l List.mem_cons_self) lines
      exact ⟨chunk, e', lines, htakes⟩
  · exact ⟨e, [], lines, takes_end he hnil lines⟩

/-! ## Runs on lines that fit -/

/-- The commands for `left` are still to come, and what is left of the input is made of them. -/
structure Left (lines left : List Line) (s : Console) : Prop where
  subset : left ⊆ lines
  text : ∃ e, IsEnd e ∧ s.stdin.text = e ++ input left
  accounted : s.enqueued ++ commands left = commands lines
  read_ne : ∀ read ∈ s.stdin.reads, read ≠ []

/-- A turn that reads. -/
structure TurnTakes (lines : List Line) (s : Console) (chunk e' : Bytes) (left : List Line) :
    Prop where
  next : Left lines left s.turn
  text : s.turn.stdin.text = e' ++ input left
  reads : s.turn.stdin.reads = (takeReads 10 255 s.stdin.buffer s.stdin.reads).2.2
  buffer : s.turn.stdin.buffer = (takeReads 10 255 s.stdin.buffer s.stdin.reads).2.1
  taken : (takeReads 10 255 s.stdin.buffer s.stdin.reads).1 = chunk
  closed : s.turn.stdin.closed = s.stdin.closed
  shorter : s.turn.stdin.text.length < s.stdin.text.length
  isEnd : IsEnd e'
  complete : 10 ∈ chunk ∨ e' ≠ []

theorem Left.turn {lines left : List Line} {s : Console} (hshort : ∀ l ∈ lines, l.Short)
    (h : Left lines left s) (hhit : s.stdin.kbHitReturn = true) (hne : s.stdin.text ≠ []) :
    ∃ chunk e' left', TurnTakes lines s chunk e' left' := by
  obtain ⟨e, he, htext⟩ := h.text
  rw [htext] at hne
  obtain ⟨chunk, e', left', htakes⟩ :=
    takeLine_lines (fun l hl => hshort l (h.subset hl)) he hne
  have htake := htakes.take
  rw [← htext] at htake
  have hcomplete := htakes.complete.imp_right And.left
  have hturn := turn_chunk hhit htake htakes.ne_nil hcomplete
  have htext' := text_turn_chunk hhit htake htakes.ne_nil hcomplete
  have hlength : ((takeLine 10 255 s.stdin.text).1 ++ (takeLine 10 255 s.stdin.text).2).length =
      s.stdin.text.length := congrArg List.length (append_takeLine 255 s.stdin.text)
  rw [htake, List.length_append] at hlength
  have hsubset := List.Subset.trans htakes.subset h.subset
  have hchunk : (takeReads 10 255 s.stdin.buffer s.stdin.reads).1 = chunk :=
    (takeReads_fst 255 _ _).trans (congrArg Prod.fst htake)
  refine ⟨chunk, e', left', ⟨hsubset, ⟨e', htakes.isEnd, htext'⟩, ?_, ?_⟩, htext', by rw [hturn],
    by rw [hturn], hchunk, by rw [hturn], ?_, htakes.isEnd, htakes.complete.imp_right And.right⟩
  · rw [hturn, List.append_assoc, htakes.commands, h.accounted]
  · rw [hturn]
    exact fun read hread => h.read_ne read ((takeReads_suffix _ _ _).subset hread)
  · rw [htext', ← hlength]
    exact Nat.lt_add_of_pos_left (List.length_pos_iff.mpr htakes.ne_nil)

/-- Nothing is left of lines that fit exactly if no command is. -/
theorem onlyEnds_iff_commands {left : List Line} (hshort : ∀ l ∈ left, l.Short) {e : Bytes}
    (he : IsEnd e) : OnlyEnds (e ++ input left) ↔ commands left = [] := by
  have hends : OnlyEnds e := he.onlyEnds
  constructor
  · intro h
    refine List.map_eq_nil_iff.mpr (List.filter_eq_nil_iff.mpr fun l hl => ?_)
    cases htext : l.text with
    | nil => simp
    | cons c text =>
      have hc : c ∈ l.text := htext ▸ List.mem_cons_self
      obtain ⟨-, hcr, hlf⟩ := (hshort l hl).plain c hc
      have hmem : c ∈ e ++ input left := by
        have hcontent := List.mem_map_of_mem (f := Line.content) hl
        refine List.mem_append_right e (List.mem_flatMap.mpr ⟨l.content, hcontent, ?_⟩)
        exact List.mem_append_left _ (List.mem_append_left _ hc)
      exact ((h c hmem).elim hcr hlf).elim
  · intro h c hc
    rcases List.mem_append.mp hc with hc | hc
    · exact hends c hc
    · obtain ⟨content, hcontent, hc⟩ := List.mem_flatMap.mp hc
      obtain ⟨l, hl, rfl⟩ := List.mem_map.mp hcontent
      have hempty : l.text = [] := by
        simpa using List.filter_eq_nil_iff.mp (List.map_eq_nil_iff.mp h) l hl
      rw [Line.content, hempty] at hc
      cases hcr : l.cr with
      | true => simpa [hcr] using hc
      | false => exact .inr (by simpa [hcr] using hc)

/-- **What is left of the last read** when a turn has made it. -/
theorem TurnTakes.drained_iff {lines left : List Line} {s : Console} {chunk e' : Bytes}
    (h : TurnTakes lines s chunk e' left) (hne : s.stdin.reads ≠ [])
    (hnil : s.turn.stdin.reads = []) :
    OnlyEnds (e' ++ input left) ↔ LastReadDrained s.stdin.reads := by
  have hbuffer : s.turn.stdin.buffer = e' ++ input left := by
    rw [← h.text, Stdin.text, hnil, List.flatten_nil, List.append_nil]
  obtain ⟨x, p, hchunk, hx, hlast⟩ := takeReads_last hne (h.reads.symm.trans hnil)
  rw [← h.buffer, hbuffer] at hlast
  rw [h.taken] at hchunk
  constructor
  · intro hends last hlast' p' q hsplit
    rw [hlast, Option.some.injEq] at hlast'
    -- a LF in what was taken is its end
    rcases List.append_eq_append_iff.mp (hlast'.trans hsplit) with ⟨t, rfl, htail⟩ | ⟨t, hp, htail⟩
    · refine fun c hc => hends c ?_
      rw [htail]
      exact List.mem_append_right t (List.mem_cons_of_mem 10 hc)
    · cases t with
      | nil =>
        refine fun c hc => hends c ?_
        rw [List.nil_append] at htail
        rw [← htail]
        exact List.mem_cons_of_mem 10 hc
      | cons d t =>
        obtain ⟨rfl, rfl⟩ := List.cons.inj htail
        have hend : t = [] := by
          have htaken : (takeReads 10 255 s.stdin.buffer s.stdin.reads).1 = x ++ p' ++ 10 :: t := by
            rw [h.taken, hchunk, hp, List.append_assoc]
          exact takeLine_append_nl ((takeReads_fst 255 _ _).symm.trans htaken)
        rw [hend]
        exact hends
  · intro hdrained
    have hdrained := hdrained _ hlast
    by_cases hmem : 10 ∈ chunk
    · rw [hchunk] at hmem
      obtain ⟨p₁, p₂, hp⟩ := List.append_of_mem ((List.mem_append.mp hmem).resolve_left hx)
      have hq := hdrained p₁ (p₂ ++ (e' ++ input left)) (by rw [hp]; simp)
      exact fun c hc => hq c (List.mem_append_right p₂ hc)
    · have hq (e : Bytes) (he : e' = e ++ [10]) : OnlyEnds (input left) :=
        hdrained (p ++ e) (input left) (by rw [he]; simp)
      rcases h.isEnd with rfl | rfl | rfl
      · exact absurd rfl (h.complete.resolve_left hmem)
      · exact List.forall_mem_cons.mpr ⟨.inr rfl, hq [] rfl⟩
      · exact List.forall_mem_cons.mpr ⟨.inl rfl, List.forall_mem_cons.mpr ⟨.inr rfl, hq [13] rfl⟩⟩


/-- **When the input ends**, all the commands are enqueued in the end. -/
theorem Left.run_closed {lines : List Line} (hshort : ∀ l ∈ lines, l.Short) {left : List Line}
    {s : Console} (h : Left lines left s) (hclosed : s.stdin.closed = true) :
    ∃ n, (run n s).turn = run n s ∧ (run n s).enqueued = commands lines := by
  induction hlength : s.stdin.text.length using Nat.strong_induction_on generalizing s left with
  | _ length ih =>
    by_cases hnil : s.stdin.text = []
    · obtain ⟨e, he, htext⟩ := h.text
      obtain ⟨hbuffer, hflatten⟩ := List.append_eq_nil_iff.mp hnil
      have hreads : s.stdin.reads = [] := by
        by_contra hne
        obtain ⟨read, hread⟩ := List.exists_mem_of_ne_nil _ hne
        exact h.read_ne read hread (List.flatten_eq_nil_iff.mp hflatten read hread)
      have hleft : commands left = [] := by
        refine (onlyEnds_iff_commands (fun l hl => hshort l (h.subset hl)) he).mp ?_
        rw [← htext, hnil]
        exact fun c hc => absurd hc List.not_mem_nil
      refine ⟨0, turn_end hbuffer hreads hclosed, ?_⟩
      have hcommands := h.accounted
      rw [hleft, List.append_nil] at hcommands
      exact hcommands
    · have hhit : s.stdin.kbHitReturn = true := by rw [Stdin.kbHitReturn, hclosed, Bool.or_true]
      obtain ⟨chunk, e', left', hturn⟩ := h.turn hshort hhit hnil
      obtain ⟨n, hn⟩ := ih _ (hlength ▸ hturn.shorter) hturn.next (hturn.closed.trans hclosed) rfl
      exact ⟨n + 1, hn⟩

/-- **When the input stays open**, the run comes to wait after the last read, and all the commands
are enqueued then exactly if that read was drained. -/
theorem Left.run_open {lines : List Line} (hshort : ∀ l ∈ lines, l.Short) {left : List Line}
    {s : Console} (h : Left lines left s) (hopen : s.stdin.closed = false)
    (hreads : s.stdin.reads ≠ []) :
    ∃ n, (run n s).turn = run n s ∧
      ((run n s).enqueued = commands lines ↔ LastReadDrained s.stdin.reads) := by
  induction hlength : s.stdin.text.length using Nat.strong_induction_on generalizing s left with
  | _ length ih =>
    have hhit : s.stdin.kbHitReturn = true := by simp [Stdin.kbHitReturn, hreads]
    have hne : s.stdin.text ≠ [] := by
      intro hnil
      obtain ⟨read, hread⟩ := List.exists_mem_of_ne_nil _ hreads
      have hflatten := (List.append_eq_nil_iff.mp hnil).2
      exact h.read_ne read hread (List.flatten_eq_nil_iff.mp hflatten read hread)
    obtain ⟨chunk, e', left', hturn⟩ := h.turn hshort hhit hne
    by_cases hnil : s.turn.stdin.reads = []
    · refine ⟨1, turn_open hnil (hturn.closed.trans hopen), ?_⟩
      rw [← hturn.drained_iff hreads hnil,
        onlyEnds_iff_commands (fun l hl => hshort l (hturn.next.subset hl)) hturn.isEnd,
        ← hturn.next.accounted]
      exact List.self_eq_append_right
    · obtain ⟨n, hn, hdrained⟩ :=
        ih _ (hlength ▸ hturn.shorter) hturn.next (hturn.closed.trans hopen) hnil rfl
      refine ⟨n + 1, hn, hdrained.trans ?_⟩
      have hlast : s.turn.stdin.reads.getLast? = s.stdin.reads.getLast? := by
        obtain ⟨made, hmade⟩ : (takeReads 10 255 s.stdin.buffer s.stdin.reads).2.2 <:+
            s.stdin.reads := takeReads_suffix 255 s.stdin.buffer s.stdin.reads
        rw [← hturn.reads] at hmade
        rw [← hmade, List.getLast?_append_of_ne_nil _ hnil]
      rw [LastReadDrained, LastReadDrained, hlast]

theorem Delivery.left_start {lines : List Line} (d : Delivery lines) :
    Left lines lines d.start :=
  ⟨List.Subset.refl _, ⟨[], .inl rfl, d.flatten_reads⟩, rfl, d.read_ne⟩

/-! ## What can be enqueued -/

/-- A command fits into the buffer and has no CR. -/
def Bounded (c : CommandToProcess) : Prop := c.command.length ≤ 255 ∧ 13 ∉ c.command

/-- A string that `fgets` gives fits into the buffer. -/
theorem length_fgets_le {stdin stdin' : Stdin} {commandStr : Bytes}
    (h : stdin.fgets 256 = some (some commandStr, stdin')) : commandStr.length ≤ 255 := by
  unfold Stdin.fgets at h
  dsimp only at h
  split at h
  · cases h
  · split at h
    · cases h
    · obtain ⟨hchunk, -⟩ := Prod.mk.inj (Option.some.inj h)
      rw [← Option.some.inj hchunk, takeReads_fst]
      exact length_takeLine_le 255 _

theorem bounded_turn {s : Console} (h : ∀ c ∈ s.enqueued, Bounded c) :
    ∀ c ∈ s.turn.enqueued, Bounded c := by
  unfold turn
  split
  · split
    · exact h
    · exact h
    · rename_i commandStr stdin hchunk
      dsimp only
      split
      · exact h
      · intro c hc
        rcases List.mem_append.mp hc with hc | hc
        · exact h c hc
        · obtain rfl := List.mem_singleton.mp hc
          refine ⟨?_, fun hmem => ?_⟩
          · exact (List.takeWhile_prefix _).length_le.trans (length_fgets_le hchunk)
          · have hcr := List.mem_takeWhile_imp hmem
            simp at hcr
  · exact h

/-- **No command** is longer than the buffer or has a CR. -/
theorem enqueued_bounded (turns : Nat) : ∀ {s : Console}, (∀ c ∈ s.enqueued, Bounded c) →
    ∀ c ∈ (run turns s).enqueued, Bounded c := by
  induction turns with
  | zero => exact fun h => h
  | succ turns ih => exact fun h => ih (bounded_turn h)

/-- A line that became a command is short. -/
theorem OneCommandPerLine.short {lines : List Line} {d : Delivery lines}
    (h : OneCommandPerLine d) : ∀ l ∈ lines, l.Short := by
  obtain ⟨n, h⟩ := h
  intro l hl
  by_cases hempty : l.text = []
  · rw [Line.Short, hempty]
    exact ⟨Nat.zero_le _, List.not_mem_nil⟩
  · have hmem : { channelId := 1, command := l.text } ∈ commands lines := by
      refine List.mem_map.mpr ⟨l, List.mem_filter.mpr ⟨hl, ?_⟩, rfl⟩
      simpa using hempty
    rw [← h n le_rfl] at hmem
    exact enqueued_bounded n (fun _ hc => absurd hc List.not_mem_nil) _ hmem

/-- A run that has come to its end decides. -/
theorem oneCommandPerLine_iff_of_turn {lines : List Line} {d : Delivery lines} {n : Nat}
    (h : (run n d.start).turn = run n d.start) :
    OneCommandPerLine d ↔ (run n d.start).enqueued = commands lines := by
  have hrun : ∀ turns, n ≤ turns → run turns d.start = run n d.start := by
    intro turns hturns
    obtain ⟨more, rfl⟩ := Nat.exists_eq_add_of_le hturns
    rw [run_add, run_of_turn h]
  constructor
  · rintro ⟨m, hm⟩
    rw [← hm (max n m) (le_max_right n m), hrun _ (le_max_left n m)]
  · exact fun hn => ⟨n, fun turns hturns => by rw [hrun turns hturns, hn]⟩

/-- **When one line is one command**: exactly if no line is longer than 255 bytes or has a CR before
its end, and, where the input stays open, the last read leaves no line in the buffer of stdio. -/
theorem oneCommandPerLine_iff {lines : List Line} (d : Delivery lines) :
    OneCommandPerLine d ↔
      (∀ l ∈ lines, l.Short) ∧ (d.closed = false → LastReadDrained d.reads) := by
  refine ⟨fun h => ⟨h.short, fun hopen => ?_⟩, fun ⟨hshort, hdrained⟩ => ?_⟩
  · by_cases hreads : d.reads = []
    · rw [LastReadDrained, hreads]
      exact nofun
    · obtain ⟨n, hn, hiff⟩ := d.left_start.run_open h.short hopen hreads
      exact hiff.mp ((oneCommandPerLine_iff_of_turn hn).mp h)
  · cases hclosed : d.closed with
    | true =>
      obtain ⟨n, hn, hcommands⟩ := d.left_start.run_closed hshort hclosed
      exact (oneCommandPerLine_iff_of_turn hn).mpr hcommands
    | false =>
      by_cases hreads : d.reads = []
      · have hstart : (run 0 d.start).turn = run 0 d.start := turn_open hreads hclosed
        refine (oneCommandPerLine_iff_of_turn hstart).mpr ?_
        have hinput := d.flatten_reads
        rw [hreads] at hinput
        have hends : OnlyEnds ([] ++ input lines) := by
          rw [← hinput]
          exact fun c hc => absurd hc List.not_mem_nil
        exact ((onlyEnds_iff_commands hshort (.inl rfl)).mp hends).symm
      · obtain ⟨n, hn, hiff⟩ := d.left_start.run_open hshort hclosed hreads
        exact (oneCommandPerLine_iff_of_turn hn).mpr (hiff.mpr (hdrained hclosed))

/-- The lines `a` and `b`. -/
def twoLines : List Line :=
  [⟨[97], false, by decide, by decide, by decide⟩, ⟨[98], false, by decide, by decide, by decide⟩]

/-- They come in one read, and the input stays open. -/
def oneRead : Delivery twoLines := ⟨[[97, 10, 98, 10]], false, by decide, rfl⟩

/-- The line `a CR b LF`. -/
def crLine : List Line := [⟨[97, 13, 98], false, by decide, by decide, by decide⟩]

def crRead : Delivery crLine := ⟨[[97, 13, 98, 10]], true, by decide, rfl⟩

/-- `a CR b LF` becomes the command `a`; and of two lines that come in one read, the second becomes
no command while nothing more comes. -/
theorem not_oneCommandPerLine : ¬OneCommandPerLine crRead ∧ ¬OneCommandPerLine oneRead := by
  constructor
  · rintro ⟨n, h⟩
    have hmem : ({ channelId := 1, command := [97, 13, 98] } : CommandToProcess) ∈
        (run n crRead.start).enqueued := by
      rw [h n le_rfl]
      exact List.mem_cons_self
    exact (enqueued_bounded n (fun _ hc => absurd hc List.not_mem_nil) _ hmem).2 (by decide)
  · intro h
    have hwaits : (run 1 oneRead.start).turn = run 1 oneRead.start := rfl
    exact absurd ((oneCommandPerLine_iff_of_turn hwaits).mp h) (by decide)

end Console

end WinterWind.Utils
