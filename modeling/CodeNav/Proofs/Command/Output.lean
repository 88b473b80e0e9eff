import CodeNav.Command.Output
import CodeNav.Proofs.Run
import CodeNav.Proofs.Text.Utf8
import Mathlib.Data.List.Forall2
import Mathlib.Logic.Function.Basic

/-!
# What becomes of the output of commands

A command writes to two streams, each of which has a reader, and both readers add lines to one log. They go on
in any order and take as many bytes as they like at a time. Each adds its lines whole and in their order, so
what comes to the log is an interleaving of the lines of both streams. A reader gets as far as the first line
that is no text; what follows such a line is lost.

## Main definitions

* `LineReader.Cut`: a stream cut into its lines
* `LineReader.Shows`: the text of a line, without its line end
* `LineReader.Reads`: what a reader makes of lines
* `OutputWorld`, `OutputWorld.Step`: the streams of a command and their readers, and how these take turns
* `OutputWorld.Received`: what has come to the log

## Main statements

* `LineReader.reads_linesOf`: a reader reads the lines of its stream
* `OutputWorld.received_of_run`: what has come to the log after any turns of the readers
* `OutputWorld.received_whole`: what comes to the log of a program that has ended
-/

namespace CodeNav

variable {c : Command} {bytes rest rest' : List UInt8} {channel : Channel} {log : ProgressLog}

/-! ### Lines of a stream -/

namespace LineReader

variable {raw line used : List UInt8} {raws raws' : List (List UInt8)} {text : String} {lines : List String}
  {r r' : LineReader} {cs : List Char}

/-- A stream is cut after each of its line feeds. What follows the last of them is a line as well, if it is not
empty. -/
inductive Cut : List UInt8 → List (List UInt8) → Prop
  | nil : Cut [] []
  | last {line : List UInt8} (hne : line ≠ []) (h : 0x0A ∉ line) : Cut line [line]
  | line {line rest : List UInt8} {raws : List (List UInt8)} (h : 0x0A ∉ line) (hrest : Cut rest raws) :
      Cut (line ++ 0x0A :: rest) ((line ++ [0x0A]) :: raws)

/-- The text that is shown for the bytes of a line. A line feed at its end, and a carriage return before that,
are not shown. -/
inductive Shows : List UInt8 → String → Prop
  | feed {cs : List Char} (h : cs.getLast? ≠ some '\r') :
      Shows (Text.utf8Bytes (cs ++ ['\n'])) (String.ofList cs)
  | returnFeed (cs : List Char) : Shows (Text.utf8Bytes (cs ++ ['\r', '\n'])) (String.ofList cs)
  | last {cs : List Char} (h : cs.getLast? ≠ some '\n') : Shows (Text.utf8Bytes cs) (String.ofList cs)

/-- What a reader makes of the lines of its stream: their texts, up to the first line that is no text. -/
inductive Reads : List (List UInt8) → List String → Prop
  | nil : Reads [] []
  | noText {raw : List UInt8} {raws : List (List UInt8)} (h : ∀ cs, raw ≠ Text.utf8Bytes cs) :
      Reads (raw :: raws) []
  | line {raw : List UInt8} {raws : List (List UInt8)} {text : String} {lines : List String}
      (h : Shows raw text) (hrest : Reads raws lines) : Reads (raw :: raws) (text :: lines)

/-- Of a stream that is text throughout, all lines are read. -/
theorem Reads.forall₂ (h : Reads raws lines) (hall : ∀ raw ∈ raws, ∃ cs, raw = Text.utf8Bytes cs) :
    List.Forall₂ Shows raws lines := by
  induction h with
  | nil => exact .nil
  | noText hnone =>
    obtain ⟨cs, hcs⟩ := hall _ List.mem_cons_self
    exact absurd hcs (hnone cs)
  | line hshows _ ih => exact .cons hshows (ih fun raw hraw ↦ hall raw (List.mem_cons_of_mem _ hraw))

theorem exists_cut (bytes : List UInt8) : ∃ raws, Cut bytes raws := by
  induction bytes with
  | nil => exact ⟨[], .nil⟩
  | cons b bytes ih =>
    obtain ⟨raws, hraws⟩ := ih
    by_cases hb : b = 0x0A
    · subst hb
      exact ⟨_, @Cut.line [] bytes raws List.not_mem_nil hraws⟩
    · cases hraws with
      | nil => exact ⟨_, .last (List.cons_ne_nil b []) (by simpa using Ne.symm hb)⟩
      | last _ h => exact ⟨_, .last (List.cons_ne_nil b _) (by simp [h, Ne.symm hb])⟩
      | @line line rest raws h hrest =>
        exact ⟨_, @Cut.line (b :: line) rest raws (by simp [h, Ne.symm hb]) hrest⟩

/-- The first line feed of a stream ends its first line. -/
theorem append_feed_inj (h : 0x0A ∉ line) (h' : 0x0A ∉ used)
    (heq : line ++ 0x0A :: rest = used ++ 0x0A :: rest') : line = used ∧ rest = rest' := by
  have hwhile {l : List UInt8} (hl : 0x0A ∉ l) : ∀ b ∈ l, (b != 0x0A) = true := fun b hb ↦
    bne_iff_ne.mpr fun hfeed ↦ hl (hfeed ▸ hb)
  have htake := congrArg (List.takeWhile (· != 0x0A)) heq
  simp only [List.takeWhile_append_of_pos (hwhile h), List.takeWhile_append_of_pos (hwhile h'),
    List.takeWhile_cons, bne_self_eq_false, Bool.false_eq_true, if_false, List.append_nil] at htake
  subst htake
  exact ⟨rfl, (List.cons.inj (List.append_cancel_left heq)).2⟩

theorem Cut.unique (h : Cut bytes raws) (h' : Cut bytes raws') : raws = raws' := by
  induction h generalizing raws' with
  | nil =>
    generalize hwhole : [] = whole at h'
    cases h' with
    | nil => rfl
    | last hne => exact absurd hwhole.symm hne
    | line => simp at hwhole
  | last hne h =>
    cases h' with
    | nil => exact absurd rfl hne
    | last => rfl
    | line => simp at h
  | @line line rest _ h _ ih =>
    generalize hwhole : line ++ 0x0A :: rest = whole at h'
    cases h' with
    | nil => simp at hwhole
    | last _ h' => simp [← hwhole] at h'
    | line h' hrest' =>
      obtain ⟨rfl, rfl⟩ := append_feed_inj h h' hwhole
      rw [ih hrest']

/-! ### The text of a line -/

theorem withoutLineEnd_feed (h : cs.getLast? ≠ some '\r') : withoutLineEnd (cs ++ ['\n']) = cs := by
  have hreverse : cs.reverse.head? ≠ some '\r' := by rwa [List.head?_reverse]
  rw [withoutLineEnd, List.reverse_append]
  rcases hcs : cs.reverse with _ | ⟨c, rest⟩
  · simpa using hcs.symm
  · rw [hcs, List.head?_cons] at hreverse
    simp only [List.reverse_cons, List.reverse_nil, List.nil_append, List.cons_append]
    split
    · rename_i heq
      obtain ⟨rfl, -⟩ := List.cons.inj (List.cons.inj heq).2
      exact absurd rfl hreverse
    · rename_i heq
      rw [← (List.cons.inj heq).2, ← hcs, List.reverse_reverse]
    · rename_i hnot
      exact absurd rfl (hnot _)

theorem withoutLineEnd_returnFeed (cs : List Char) : withoutLineEnd (cs ++ ['\r', '\n']) = cs := by
  simp [withoutLineEnd]

theorem withoutLineEnd_last (h : cs.getLast? ≠ some '\n') : withoutLineEnd cs = cs := by
  rw [← List.head?_reverse] at h
  rw [withoutLineEnd]
  split
  · rename_i heq
    simp [heq] at h
  · rename_i heq
    simp [heq] at h
  · rfl

/-- A line is shown without its line end, if it is text. -/
theorem lineText?_eq_some_iff : lineText? raw = some text ↔ Shows raw text := by
  rw [lineText?, Option.map_eq_some_iff]
  constructor
  · rintro ⟨s, hs, rfl⟩
    obtain rfl := Text.utf8Text?_eq_some_iff.mp hs
    rcases List.eq_nil_or_concat' s.toList with hnil | ⟨front, last, hfront⟩
    · rw [hnil]
      exact @Shows.last [] (by simp)
    · rw [hfront]
      by_cases hlast : last = '\n'
      · subst hlast
        rcases List.eq_nil_or_concat' front with rfl | ⟨front, before, rfl⟩
        · exact @Shows.feed [] (by simp)
        · by_cases hbefore : before = '\r'
          · subst hbefore
            rw [List.append_assoc, List.singleton_append, withoutLineEnd_returnFeed]
            exact .returnFeed front
          · have hnot : (front ++ [before]).getLast? ≠ some '\r' := by simpa using hbefore
            rw [withoutLineEnd_feed hnot]
            exact .feed hnot
      · have hnot : (front ++ [last]).getLast? ≠ some '\n' := by simpa using hlast
        rw [withoutLineEnd_last hnot]
        exact .last hnot
  · intro h
    cases h with
    | feed h => exact ⟨_, Text.utf8Text?_utf8Bytes _, by rw [String.toList_ofList, withoutLineEnd_feed h]⟩
    | returnFeed cs =>
      exact ⟨_, Text.utf8Text?_utf8Bytes _, by rw [String.toList_ofList, withoutLineEnd_returnFeed]⟩
    | last h => exact ⟨_, Text.utf8Text?_utf8Bytes _, by rw [String.toList_ofList, withoutLineEnd_last h]⟩

theorem lineText?_eq_none (h : lineText? raw = none) (cs : List Char) : raw ≠ Text.utf8Bytes cs := by
  rintro rfl
  simp [lineText?, Text.utf8Text?_utf8Bytes] at h

/-! ### Reading a stream -/

theorem feed_append (r : LineReader) (bytes more : List UInt8) :
    r.feed (bytes ++ more) =
      (((r.feed bytes).1.feed more).1, (r.feed bytes).2 ++ ((r.feed bytes).1.feed more).2) := by
  induction bytes generalizing r with
  | nil => rfl
  | cons b bytes ih => simp only [List.cons_append, feed, ih, List.append_assoc]

@[simp] theorem feed_stopped (bytes : List UInt8) : stopped.feed bytes = (stopped, []) := by
  induction bytes with
  | nil => rfl
  | cons b bytes ih => simp [feed, step, ih]

theorem feed_of_notMem (h : 0x0A ∉ bytes) (line : List UInt8) :
    (reading line).feed bytes = (reading (bytes.reverse ++ line), []) := by
  induction bytes generalizing line with
  | nil => rfl
  | cons b bytes ih =>
    obtain ⟨hb, hbytes⟩ := not_or.mp (mt List.mem_cons.mpr h)
    simp [feed, step, Ne.symm hb, ih hbytes]

/-- At a line feed the reader shows the line, or stops for good. -/
theorem feed_line (h : 0x0A ∉ line) :
    fresh.feed (line ++ [0x0A]) =
      match lineText? (line ++ [0x0A]) with
      | some text => (fresh, [text])
      | none => (stopped, []) := by
  rw [feed_append, fresh, feed_of_notMem h, List.append_nil]
  simp only [feed, step, if_true, List.reverse_cons, List.reverse_reverse, List.nil_append]
  cases lineText? (line ++ [0x0A]) <;> rfl

theorem linesOf_append_of_feed (h : fresh.feed bytes = (fresh, lines)) (more : List UInt8) :
    linesOf (bytes ++ more) = lines ++ linesOf more := by
  simp only [linesOf, feed_append, h, List.append_assoc]

theorem linesOf_append_of_stopped (h : fresh.feed bytes = (stopped, lines)) (more : List UInt8) :
    linesOf (bytes ++ more) = lines := by
  simp [linesOf, feed_append, h, finish]

theorem finish_reading (h : line ≠ []) : (reading line.reverse).finish = lineText? line := by
  rw [finish, List.reverse_reverse]
  simpa using h

/-- A reader reads the lines of its stream. -/
theorem reads_linesOf (h : Cut bytes raws) : Reads raws (linesOf bytes) := by
  have hread {raw : List UInt8} {raws : List (List UInt8)} {lines : List String}
      (hrest : Reads raws lines) :
      Reads (raw :: raws) (match lineText? raw with | some text => text :: lines | none => []) := by
    cases hraw : lineText? raw with
    | none => exact .noText (lineText?_eq_none hraw)
    | some text => exact .line (lineText?_eq_some_iff.mp hraw) hrest
  induction h with
  | nil => exact .nil
  | @last line hne h =>
    have hlines : linesOf line = (lineText? line).toList := by
      rw [linesOf, fresh, feed_of_notMem h, List.append_nil]
      exact congrArg Option.toList (finish_reading hne)
    rw [hlines]
    have hone := @hread line [] [] .nil
    cases hraw : lineText? line <;> simpa [hraw] using hone
  | @line line rest raws h _ ih =>
    have hfeed := feed_line h
    have hwhole : line ++ 0x0A :: rest = line ++ [0x0A] ++ rest := List.append_cons ..
    rw [hwhole]
    have hone := @hread (line ++ [0x0A]) raws _ ih
    cases hraw : lineText? (line ++ [0x0A]) with
    | none =>
      rw [hraw] at hfeed hone
      rwa [linesOf_append_of_stopped hfeed]
    | some text =>
      rw [hraw] at hfeed hone
      rwa [linesOf_append_of_feed hfeed]

end LineReader

/-! ### Two readers and their log -/

/-- A command that has written to its streams: the bytes that are still unread, and the readers. -/
structure OutputWorld where
  unread : Channel → List UInt8
  readers : OutputLog

namespace OutputWorld

variable {streams : Channel → List UInt8} {w w' : OutputWorld} {t : List Channel}
  {merged : List (Channel × String)}

/-- Nothing has been read. -/
def start (streams : Channel → List UInt8) (log : ProgressLog) : OutputWorld := ⟨streams, .start log⟩

/-- A reader takes the next bytes of its stream, as many as it likes, or comes to the end of it. -/
inductive Step (c : Command) (w : OutputWorld) : Channel → OutputWorld → Prop
  | take {channel : Channel} {bytes rest : List UInt8} (h : w.unread channel = bytes ++ rest) :
      Step c w channel
        ⟨Function.update w.unread channel rest, w.readers.take c channel bytes⟩
  | close {channel : Channel} (h : w.unread channel = []) :
      Step c w channel { w with readers := w.readers.close c channel }

/-- Both readers have stopped. -/
def IsDone (w : OutputWorld) : Prop := ∀ channel, w.readers.reader channel = .stopped

/-- The lines of one stream among those of both. -/
def linesFrom (channel : Channel) (merged : List (Channel × String)) : List String :=
  (merged.filter fun l ↦ l.1 = channel).map Prod.snd

/-- What has come to the log: the lines of both streams in some order, each whole and without the secrets. -/
structure Received (c : Command) (streams : Channel → List UInt8) (log : ProgressLog) (w : OutputWorld)
    (merged : List (Channel × String)) : Prop where
  /-- The log has the lines, each followed by a line feed, and is otherwise as before. -/
  text : w.readers.log.snapshot =
    { log.snapshot with
      text := String.ofList
        (log.snapshot.text.toList ++ merged.flatMap fun l ↦ (c.redact l.2).toList ++ ['\n']) }
  /-- Each stream is cut into lines in one way. Those that can be read come in their order, all of them when
  all is done. If the stream is text, these are all its lines. -/
  lines : ∀ channel, ∃ raws lines, LineReader.Cut (streams channel) raws ∧ LineReader.Reads raws lines ∧
    linesFrom channel merged <+: lines ∧ (w.IsDone → linesFrom channel merged = lines) ∧
    ((∀ raw ∈ raws, ∃ cs, raw = Text.utf8Bytes cs) → List.Forall₂ LineReader.Shows raws lines)

/-! ### The log -/

/-- More lines are added one after the other. -/
theorem snapshot_addLines (c : Command) (lines : List String) (log : ProgressLog) :
    (OutputLog.addLines c lines log).snapshot =
      { log.snapshot with
        text := String.ofList
          (log.snapshot.text.toList ++ lines.flatMap fun l ↦ (c.redact l).toList ++ ['\n']) } := by
  induction lines using List.reverseRecOn with
  | nil => simp [OutputLog.addLines]
  | append_singleton lines line ih =>
    have hadd : OutputLog.addLines c (lines ++ [line]) log =
        (OutputLog.addLines c lines log).append (c.redact line ++ "\n") := by
      simp [OutputLog.addLines]
    have hne : c.redact line ++ "\n" ≠ "" := by simp
    rw [hadd, ProgressLog.append, if_neg hne, ProgressLog.changed, ih]
    simp [List.flatMap_append, String.append_assoc]

theorem addLines_append (c : Command) (lines more : List String) (log : ProgressLog) :
    OutputLog.addLines c (lines ++ more) log = OutputLog.addLines c more (OutputLog.addLines c lines log) :=
  List.foldl_append

theorem log_take (c : Command) (channel : Channel) (bytes : List UInt8) (o : OutputLog) :
    (o.take c channel bytes).log = OutputLog.addLines c ((o.reader channel).feed bytes).2 o.log := by
  cases channel <;> rfl

theorem reader_take (c : Command) (channel channel' : Channel) (bytes : List UInt8) (o : OutputLog) :
    (o.take c channel bytes).reader channel' =
      if channel' = channel then ((o.reader channel).feed bytes).1 else o.reader channel' := by
  cases channel <;> cases channel' <;> rfl

theorem log_close (c : Command) (channel : Channel) (o : OutputLog) :
    (o.close c channel).log = OutputLog.addLines c (o.reader channel).finish.toList o.log := by
  cases channel <;> rfl

theorem reader_close (c : Command) (channel channel' : Channel) (o : OutputLog) :
    (o.close c channel).reader channel' = if channel' = channel then .stopped else o.reader channel' := by
  cases channel <;> cases channel' <;> rfl

/-! ### One stream -/

/-- How far a reader has come: what it has taken of its stream, or that it has come to the end. -/
inductive Far (stream unread : List UInt8) (r : LineReader) (lines : List String) : Prop
  | amid {used : List UInt8} (hstream : stream = used ++ unread)
      (hused : LineReader.fresh.feed used = (r, lines))
  | ended (hunread : unread = []) (hr : r = .stopped) (hlines : lines = LineReader.linesOf stream)

variable {stream unread : List UInt8} {r : LineReader} {lines : List String}

theorem Far.take (h : Far stream (bytes ++ rest) r lines) :
    Far stream rest (r.feed bytes).1 (lines ++ (r.feed bytes).2) := by
  cases h with
  | @amid used hstream hused =>
    refine @Far.amid _ _ _ _ (used ++ bytes) (by rw [hstream, List.append_assoc]) ?_
    rw [LineReader.feed_append, hused]
  | ended hunread hr hlines =>
    obtain ⟨rfl, rfl⟩ := List.append_eq_nil_iff.mp hunread
    subst hr
    exact .ended rfl rfl (by simpa using hlines)

theorem Far.close (h : Far stream [] r lines) : Far stream [] .stopped (lines ++ r.finish.toList) := by
  cases h with
  | @amid used hstream hused =>
    refine .ended rfl rfl ?_
    rw [hstream, List.append_nil, LineReader.linesOf, hused]
  | ended hunread hr hlines =>
    subst hr
    exact .ended rfl rfl (by simpa [LineReader.finish] using hlines)

/-- What a reader has shown are the first lines of its stream. -/
theorem Far.prefix_linesOf (h : Far stream unread r lines) : lines <+: LineReader.linesOf stream := by
  cases h with
  | @amid used hstream hused =>
    simp only [hstream, LineReader.linesOf, LineReader.feed_append, hused, List.append_assoc]
    exact List.prefix_append ..
  | ended _ _ hlines => exact hlines ▸ List.prefix_refl _

/-- A reader that has stopped has shown all lines of its stream that it will show. -/
theorem Far.eq_linesOf (h : Far stream unread .stopped lines) : lines = LineReader.linesOf stream := by
  cases h with
  | amid hstream hused => rw [hstream, LineReader.linesOf_append_of_stopped hused]
  | ended _ _ hlines => exact hlines

/-! ### Both streams -/

/-- The invariant of both readers: the log has their lines in some order, and each has come as far in its
stream as its lines say. -/
structure Merges (c : Command) (streams : Channel → List UInt8) (log : ProgressLog) (w : OutputWorld)
    (merged : List (Channel × String)) : Prop where
  log : w.readers.log = OutputLog.addLines c (merged.map Prod.snd) log
  far : ∀ channel, Far (streams channel) (w.unread channel) (w.readers.reader channel)
    (linesFrom channel merged)

theorem linesFrom_append_map (channel channel' : Channel) (merged : List (Channel × String))
    (lines : List String) : linesFrom channel (merged ++ lines.map (channel', ·)) =
      linesFrom channel merged ++ if channel = channel' then lines else [] := by
  rw [linesFrom, linesFrom, List.filter_append, List.map_append, List.filter_map]
  by_cases h : channel = channel'
  · simp [h, Function.comp_def]
  · simp [h, Ne.symm h, Function.comp_def]

theorem merges_start (c : Command) (streams : Channel → List UInt8) (log : ProgressLog) :
    Merges c streams log (start streams log) [] where
  log := rfl
  far channel := @Far.amid _ _ _ _ [] rfl (by cases channel <;> rfl)

/-- A turn of one reader adds some lines of its stream, and leaves the other one alone. -/
theorem Merges.turn (channel : Channel) {readers : OutputLog} {unread' : Channel → List UInt8} {lines : List String}
    (h : Merges c streams log w merged) (hlog : readers.log = OutputLog.addLines c lines w.readers.log)
    (hother : ∀ channel', channel' ≠ channel → readers.reader channel' = w.readers.reader channel' ∧
      unread' channel' = w.unread channel')
    (hfar : Far (streams channel) (unread' channel) (readers.reader channel)
      (linesFrom channel merged ++ lines)) :
    Merges c streams log ⟨unread', readers⟩ (merged ++ lines.map (channel, ·)) where
  log := by
    rw [List.map_append, addLines_append, ← h.log, List.map_map]
    simpa [Function.comp_def] using hlog
  far channel' := by
    rw [linesFrom_append_map]
    by_cases heq : channel' = channel
    · subst heq
      rwa [if_pos rfl]
    · obtain ⟨hreader, hunread⟩ := hother channel' heq
      simpa only [hreader, hunread, if_neg heq, List.append_nil] using h.far channel'

theorem Merges.step (h : Merges c streams log w merged) (hstep : Step c w channel w') :
    ∃ merged', Merges c streams log w' merged' := by
  cases hstep with
  | take hunread =>
    refine ⟨_, h.turn channel (log_take ..) (fun channel' hne ↦ ?_) ?_⟩
    · rw [reader_take, if_neg hne]
      exact ⟨rfl, Function.update_of_ne hne ..⟩
    · have hfar := h.far channel
      rw [hunread] at hfar
      rw [reader_take, if_pos rfl]
      simpa using hfar.take
  | close hunread =>
    refine ⟨_, h.turn channel (log_close ..) (fun channel' hne ↦ ?_) ?_⟩
    · rw [reader_close, if_neg hne]
      exact ⟨rfl, rfl⟩
    · have hfar := h.far channel
      rw [hunread] at hfar
      rw [reader_close, if_pos rfl, hunread]
      exact hfar.close

theorem merges_of_run (h : Run (Step c) (start streams log) t w) :
    ∃ merged, Merges c streams log w merged :=
  h.invariant (P := fun _ w ↦ ∃ merged, Merges c streams log w merged) ⟨[], merges_start ..⟩
    fun _ _ _ _ _ ⟨_, hmerged⟩ hstep ↦ hmerged.step hstep

theorem Merges.received (h : Merges c streams log w merged) : Received c streams log w merged where
  text := by rw [h.log, snapshot_addLines, List.flatMap_map]
  lines channel := by
    obtain ⟨raws, hraws⟩ := LineReader.exists_cut (streams channel)
    have hreads := LineReader.reads_linesOf hraws
    refine ⟨raws, _, hraws, hreads, (h.far channel).prefix_linesOf, fun hdone ↦ ?_, hreads.forall₂⟩
    have hfar := h.far channel
    rw [hdone channel] at hfar
    exact hfar.eq_linesOf

/-! ### All is read -/

/-- Pieces of the streams that are taken one after the other. -/
theorem exists_run_pieces (c : Command) (pieces : List (Channel × List UInt8)) (o : OutputLog)
    (more : Channel → List UInt8) : ∃ t, Run (Step c)
      ⟨fun channel ↦ (pieces.filter fun p ↦ p.1 = channel).flatMap (·.2) ++ more channel, o⟩ t
      ⟨more, pieces.foldl (fun o p ↦ o.take c p.1 p.2) o⟩ := by
  induction pieces using List.reverseRecOn generalizing more with
  | nil => exact ⟨[], .nil⟩
  | append_singleton pieces p ih =>
    obtain ⟨t, ht⟩ := ih (Function.update more p.1 (p.2 ++ more p.1))
    have htake := @Step.take c
      ⟨Function.update more p.1 (p.2 ++ more p.1), pieces.foldl (fun o p ↦ o.take c p.1 p.2) o⟩
      p.1 p.2 (more p.1) (Function.update_self ..)
    rw [Function.update_idem, Function.update_eq_self] at htake
    refine ⟨t ++ [p.1], ?_⟩
    rw [List.foldl_append, List.foldl_cons, List.foldl_nil]
    convert ht.snoc htake using 2
    funext channel
    by_cases hp : p.1 = channel
    · subst hp
      simp
    · simp [hp, Function.update_of_ne (Ne.symm hp)]

/-- Two readers that have nothing left to take come to the end of their streams. -/
theorem run_close (c : Command) (o : OutputLog) : Run (Step c) ⟨fun _ ↦ [], o⟩ [.output, .messages]
    ⟨fun _ ↦ [], (o.close c .output).close c .messages⟩ :=
  (Run.nil.snoc (.close rfl)).snoc (.close rfl)

theorem isDone_close (c : Command) (o : OutputLog) (unread : Channel → List UInt8) :
    IsDone ⟨unread, (o.close c .output).close c .messages⟩ := by
  rintro (_ | _) <;> rfl

/-- The log of a program is made by its readers. -/
theorem exists_run_whole (c : Command) (r : ProgramRun) (log : ProgressLog) : ∃ t w,
    Run (Step c) (start r.bytes log) t w ∧ w.IsDone ∧ w.readers.log = OutputLog.whole c r.pieces log := by
  obtain ⟨t, ht⟩ := exists_run_pieces c r.pieces (.start log) fun _ ↦ []
  simp only [List.append_nil] at ht
  exact ⟨_, _, ht.append (run_close c _), isDone_close c _ _, rfl⟩

/-- Readers can always come to the end of their streams. -/
theorem exists_run_isDone (c : Command) (w : OutputWorld) : ∃ t v, Run (Step c) w t v ∧ v.IsDone := by
  have htake (w : OutputWorld) (channel : Channel) := Step.take (c := c) (w := w)
    (List.append_nil (w.unread channel)).symm
  have hempty : Function.update (Function.update w.unread .output []) .messages [] = fun _ ↦ [] := by
    funext channel
    cases channel <;> rfl
  have hrun := (Run.nil.snoc (htake w .output)).snoc (htake _ .messages)
  rw [hempty] at hrun
  exact ⟨_, _, hrun.append (run_close c _), isDone_close c _ _⟩

/-! ### What comes to the log -/

/-- Whatever a command writes to its streams, and in whatever order their readers go on: the log has lines of
both, each whole, without the secrets and followed by a line feed. The lines of a stream come in their order up
to the first that is no text, and are there when all is done. To this the readers can always come. -/
theorem received_of_run (h : Run (Step c) (start streams log) t w) :
    (∃ merged, Received c streams log w merged) ∧ ∃ t' v, Run (Step c) w t' v ∧ v.IsDone :=
  ⟨(merges_of_run h).imp fun _ hmerged ↦ hmerged.received, exists_run_isDone c w⟩

/-- A line with a carriage return is read in two pieces, and a line with a secret comes between them. The last
line of the output has no line feed. -/
theorem received_between :
    let c : Command := ⟨"make", [], none, ["s3"]⟩
    let r : ProgramRun := ⟨.exited 0,
      [(.output, "a\r".toUTF8.data.toList), (.messages, "s3!\n".toUTF8.data.toList),
        (.output, "\nb".toUTF8.data.toList)]⟩
    ∃ t w, Run (Step c) (start r.bytes .fresh) t w ∧ w.IsDone ∧
      w.readers.log.snapshot.text = "***!\na\nb\n" ∧
      (∃ merged, Received c r.bytes .fresh w merged) ∧ ∃ t' v, Run (Step c) w t' v ∧ v.IsDone := by
  intro c r
  obtain ⟨t, w, hrun, hdone, hlog⟩ := exists_run_whole c r .fresh
  refine ⟨t, w, hrun, hdone, ?_, received_of_run hrun⟩
  rw [hlog]
  decide

/-- The line after one that is no text is lost, although it is text itself. -/
theorem exists_lost_line : ∃ (c : Command) (streams : Channel → List UInt8) (t : List Channel)
    (w : OutputWorld) (raws : List (List UInt8)), Run (Step c) (start streams .fresh) t w ∧ w.IsDone ∧
      LineReader.Cut (streams .output) raws ∧ (∃ raw ∈ raws, LineReader.Shows raw "three") ∧
      w.readers.log.snapshot.text = "one\n" := by
  let c : Command := ⟨"sh", [], none, []⟩
  let r : ProgramRun := ⟨.exited 0,
    [(.output, "one\n".toUTF8.data.toList ++ 0xFF :: 0x0A :: "three\n".toUTF8.data.toList)]⟩
  obtain ⟨t, w, hrun, hdone, hlog⟩ := exists_run_whole c r .fresh
  refine ⟨c, r.bytes, t, w, ["one\n".toUTF8.data.toList, [0xFF, 0x0A], "three\n".toUTF8.data.toList],
    hrun, hdone, ?_, ⟨"three\n".toUTF8.data.toList, by simp, ?_⟩, ?_⟩
  · exact @LineReader.Cut.line "one".toUTF8.data.toList _ _ (by decide)
      (@LineReader.Cut.line [0xFF] _ _ (by decide)
        (@LineReader.Cut.line "three".toUTF8.data.toList _ _ (by decide) .nil))
  · exact @LineReader.Shows.feed "three".toList (by decide)
  · rw [hlog]
    decide

/-- What a program has written comes to its log. -/
theorem received_whole (c : Command) (r : ProgramRun) (log : ProgressLog) : ∃ merged,
    (OutputLog.whole c r.pieces log).snapshot = { log.snapshot with
      text := String.ofList
        (log.snapshot.text.toList ++ merged.flatMap fun l ↦ (c.redact l.2).toList ++ ['\n']) } ∧
    ∀ channel, ∃ raws, LineReader.Cut (r.bytes channel) raws ∧
      LineReader.Reads raws (linesFrom channel merged) := by
  obtain ⟨t, w, hrun, hdone, hlog⟩ := exists_run_whole c r log
  obtain ⟨merged, hmerged⟩ := merges_of_run hrun
  have hreceived := hmerged.received
  refine ⟨merged, hlog ▸ hreceived.text, fun channel ↦ ?_⟩
  obtain ⟨raws, lines, hcut, hreads, -, hall, -⟩ := hreceived.lines channel
  exact ⟨raws, hcut, hall hdone ▸ hreads⟩

end OutputWorld

end CodeNav
