/-
  IssueTracker/Proofs/Stream/Fidelity.lean --- an event of one line survives the stream.

  The text of a frame ends with a pair of line feeds that does not overlap with anything before
  it (`endsBlock_write`), so that a decoder that was fed frames, whatever their topics and data,
  stands at the beginning of a block, and reads the next frame as if it were the first
  (`pushAll_stream_concat`).  An event whose topic and data have no controls and no space at the
  front is written with one line of data and read as it was (`Survives.of_plain`).
-/
import IssueTracker.Hub.Event
import IssueTracker.Proofs.Json.Unbroken
import IssueTracker.Proofs.Stream.RoundTrip

set_option autoImplicit false

namespace IssueTracker

namespace Decoder

variable {b : UInt8} {bs more : List UInt8}

/-! ## The end of a block -/

/-- Bytes without a complete block, and then no line feed: the first block of what follows goes
behind them. -/
theorem takeBlock?_append_of_none (hnone : takeBlock? bs = none) (hb : b ≠ lineFeed) :
    takeBlock? (bs ++ b :: more) =
      (takeBlock? (b :: more)).map fun found => (bs ++ found.1, found.2) := by
  induction bs with
  | nil =>
      rw [List.nil_append]
      cases takeBlock? (b :: more) <;> rfl
  | cons c bs ih =>
      by_cases hpair : c = lineFeed ∧ bs.head? = some lineFeed
      · obtain ⟨rfl, hhead⟩ := hpair
        obtain ⟨bs, rfl⟩ := List.head?_eq_some_iff.1 hhead
        rw [takeBlock?_pair] at hnone
        cases hnone
      · have hrest : takeBlock? bs = none := by
          rw [takeBlock?_cons hpair, Option.map_eq_none_iff] at hnone
          exact hnone
        have hpair' : ¬ (c = lineFeed ∧ (bs ++ b :: more).head? = some lineFeed) := by
          cases bs with
          | nil => exact fun h => hb (Option.some.inj h.2)
          | cons _ _ => exact hpair
        rw [List.cons_append, takeBlock?_cons hpair', ih hrest, Option.map_map]
        rfl

/-- The bytes end with a pair of line feeds that is not a part of a longer run. -/
def EndsBlock (bs : List UInt8) : Prop :=
  ∃ front b, b ≠ lineFeed ∧ bs = front ++ [b, lineFeed, lineFeed]

/-- Then the decoder keeps nothing. -/
theorem EndsBlock.takeBlocks (h : EndsBlock bs) : (takeBlocks bs).2 = [] := by
  obtain ⟨front, b, hb, rfl⟩ := h
  have hlast : takeBlock? [b, lineFeed, lineFeed] = some ([b], []) := by
    have hpair : ¬ (b = lineFeed ∧ [lineFeed, lineFeed].head? = some lineFeed) := fun h => hb h.1
    rw [takeBlock?_cons hpair, takeBlock?_pair]
    rfl
  have hfound : takeBlock? ((Decoder.takeBlocks front).2 ++ [b, lineFeed, lineFeed]) = _ :=
    takeBlock?_append_of_none (takeBlock?_of_takeBlocks front) hb
  rw [hlast] at hfound
  rw [takeBlocks_append, takeBlocks_of_some hfound]
  exact congrArg Prod.snd (takeBlocks_of_none rfl)

theorem EndsBlock.append (h : EndsBlock more) (bs : List UInt8) : EndsBlock (bs ++ more) := by
  obtain ⟨front, b, hb, rfl⟩ := h
  exact ⟨bs ++ front, b, hb, (List.append_assoc _ _ _).symm⟩

end Decoder

namespace Frame

variable {f : Frame}

/-- The last line of a frame is not empty, whatever its topic. -/
theorem exists_last_line (f : Frame) :
    ∃ front line, f.lines.map clean = front ++ [line] ∧ line ≠ [] ∧ '\n' ∉ line := by
  cases f with
  | keepalive => exact ⟨[], _, rfl, by decide, by decide⟩
  | event id topic data =>
      rw [map_clean_lines_event]
      obtain ⟨ls, line, hlines⟩ :=
        (List.eq_nil_or_concat (Text.split '\n' (clean data.toList))).resolve_left
          (Text.split_ne_nil _ _)
      rw [List.concat_eq_append] at hlines
      have hline : '\n' ∉ line :=
        Text.not_mem_of_mem_split (hlines ▸ List.mem_append_right _ List.mem_cons_self)
      refine ⟨("id:".toList ++ Text.digits id) :: ("event:".toList ++ clean topic.toList) ::
        ls.map ("data:".toList ++ ·), "data:".toList ++ line, ?_, ?_, ?_⟩
      · rw [hlines, List.map_append]
        rfl
      · exact nofun
      · rw [List.mem_append, not_or]
        exact ⟨by decide, hline⟩

/-- A frame ends with a pair of line feeds of its own. -/
theorem endsBlock_write (f : Frame) :
    Decoder.EndsBlock (Decoder.dropReturns (Text.Utf8.bytes f.write)) := by
  obtain ⟨front, line, hlines, hne, hone⟩ := f.exists_last_line
  obtain ⟨bs, b, hbytes⟩ :=
    (List.eq_nil_or_concat (Text.Utf8.encode line)).resolve_left (Text.Utf8.encode_ne_nil hne)
  rw [List.concat_eq_append] at hbytes
  have hb : b ≠ Decoder.lineFeed := by
    rintro rfl
    refine Text.Utf8.not_mem_encode (d := '\n') (by decide) hone ?_
    rw [hbytes]
    exact List.mem_append_right _ List.mem_cons_self
  refine ⟨((front.map Text.Utf8.encode).flatMap (· ++ [Decoder.lineFeed])) ++ bs, b, hb, ?_⟩
  rw [dropReturns_write, hlines, List.map_append, List.flatMap_append]
  simp [hbytes]

/-- Nothing is left of frames, whatever their topics and data. -/
theorem takeBlocks_stream_snd (fs : List Frame) :
    (Decoder.takeBlocks (Decoder.dropReturns (stream fs))).2 = [] := by
  rcases List.eq_nil_or_concat fs with rfl | ⟨front, f, rfl⟩
  · rw [Decoder.takeBlocks_of_none] <;> rfl
  · rw [List.concat_eq_append, stream_concat, Decoder.dropReturns_append]
    exact (f.endsBlock_write.append _).takeBlocks

/-- A frame behind others is read as what is received of it, however the bytes are cut into pieces
and whatever the others are. -/
theorem pushAll_stream_concat (hf : f.Fits) (before : List Frame) {chunks : List (List UInt8)}
    (hchunks : chunks.flatten = stream (before ++ [f])) :
    (Decoder.pushAll {} chunks).1.flatten =
        (Decoder.pushAll {} [stream before]).1.flatten ++ [f.received] ∧
      (Decoder.pushAll {} chunks).2.buffer = [] := by
  obtain ⟨hframes, hbuffer⟩ := Decoder.pushAll_eq (d := {}) rfl chunks
  obtain ⟨hbefore, -⟩ := Decoder.pushAll_eq (d := {}) rfl [stream before]
  have hlast : Decoder.takeBlocks (Decoder.dropReturns (Text.Utf8.bytes f.write)) =
      ([f.block], []) := by
    have hall : ∀ g ∈ [f], g.Fits := List.forall_mem_singleton.2 hf
    have hone := takeBlocks_stream hall
    rwa [stream, List.flatMap_singleton] at hone
  have hsplit : Decoder.dropReturns chunks.flatten =
      Decoder.dropReturns (stream before) ++ Decoder.dropReturns (Text.Utf8.bytes f.write) := by
    rw [hchunks, stream_concat, Decoder.dropReturns_append]
  rw [List.nil_append, hsplit, Decoder.takeBlocks_append, takeBlocks_stream_snd, List.nil_append,
    hlast] at hframes hbuffer
  rw [List.nil_append, List.flatten_singleton] at hbefore
  refine ⟨?_, hbuffer⟩
  rw [hframes, hbefore, List.filterMap_append]
  simp [ofBlock?_block hf]

end Frame

/-! ## Texts of one line -/

namespace Text

variable {cs : List Char}

/-- There is no control in the text, and no space at its front. -/
structure Plain (cs : List Char) : Prop where
  unbroken : Unbroken cs
  head : cs.head? ≠ some ' '

theorem Unbroken.one_line (h : Unbroken cs) : split '\n' cs = [cs] :=
  split_of_not_mem h.lineFeed_not_mem

/-- Lines with a line feed behind each are split into these lines, and what follows. -/
theorem split_lines {ls : List (List Char)} (hls : ∀ l ∈ ls, '\n' ∉ l) (rest : List Char) :
    split '\n' (ls.flatMap (· ++ ['\n']) ++ rest) = ls ++ split '\n' rest := by
  induction ls with
  | nil => rfl
  | cons l ls ih =>
      rw [List.forall_mem_cons] at hls
      rw [List.flatMap_cons, List.append_assoc, List.append_assoc, List.singleton_append,
        split_append_cons, split_of_not_mem hls.1, ih hls.2]
      rfl

end Text

/-! ## Events of one line -/

open Text (Plain Unbroken)

theorem Frame.dropReturn_of_not_mem {line : List Char} (h : '\r' ∉ line) :
    Frame.dropReturn line = line := by
  rw [Frame.dropReturn, if_neg]
  exact fun hlast => h (List.mem_of_getLast? hlast)

namespace Event

variable {e : Event}

/-- The text of the event is four lines without carriage returns, of which the last is empty, and a
decoder that was fed any frames before reads the event as it was. -/
structure Survives (e : Event) : Prop where
  /-- The text is these lines, with a line feed behind each; behind the last there is nothing. -/
  lines : Text.split '\n' e.frame.write.toList =
    ["id:".toList ++ Text.digits e.sequence, "event:".toList ++ e.topic.toList,
      "data:".toList ++ e.data.toList, [], []]
  noReturn : '\r' ∉ e.frame.write.toList
  /-- The text is cut into pieces anywhere, before and after the beginning of the event. -/
  read : ∀ (before : List Frame) (chunks : List (List UInt8)),
    chunks.flatten = Frame.stream before ++ Text.Utf8.bytes e.frame.write →
      (Decoder.pushAll {} chunks).1.flatten =
          (Decoder.pushAll {} [Frame.stream before]).1.flatten ++ [e.frame] ∧
        (Decoder.pushAll {} chunks).2 = {}

/-- The data of one line stands on one line. -/
theorem lines_frame (hdata : Unbroken e.data.toList) :
    e.frame.lines =
      ["id:".toList ++ Text.digits e.sequence, "event:".toList ++ e.topic.toList,
        "data:".toList ++ e.data.toList] := by
  have hkept : Frame.dropReturn e.data.toList = e.data.toList :=
    Frame.dropReturn_of_not_mem hdata.return_not_mem
  rw [frame, Frame.lines, hdata.one_line, List.map_singleton, hkept]

theorem unbroken_of_mem_lines (htopic : Unbroken e.topic.toList) (hdata : Unbroken e.data.toList)
    {line : List Char} (hline : line ∈ e.frame.lines) : Unbroken line := by
  rw [lines_frame hdata] at hline
  simp only [List.mem_cons, List.not_mem_nil, or_false] at hline
  rcases hline with rfl | rfl | rfl
  · rw [Text.unbroken_append]
    exact ⟨by decide, Text.unbroken_digits _⟩
  · rw [Text.unbroken_append]
    exact ⟨by decide, htopic⟩
  · rw [Text.unbroken_append]
    exact ⟨by decide, hdata⟩

/-- An event with a plain topic and plain data survives. -/
theorem Survives.of_plain (hsequence : e.sequence ≤ Text.maxWord64)
    (htopic : Plain e.topic.toList) (hdata : Plain e.data.toList) : e.Survives := by
  have hlines : ∀ line ∈ e.frame.lines, Unbroken line :=
    fun line => unbroken_of_mem_lines htopic.unbroken hdata.unbroken
  refine ⟨?_, ?_, fun before chunks hchunks => ?_⟩
  · rw [Frame.write, String.toList_ofList, Frame.chars_eq,
      Text.split_lines fun line hline => (hlines line hline).lineFeed_not_mem,
      lines_frame hdata.unbroken]
    rfl
  · rw [Frame.write, String.toList_ofList, Frame.chars_eq]
    intro hmem
    rcases List.mem_append.1 hmem with hmem | hmem
    · obtain ⟨line, hline, hmem⟩ := List.mem_flatMap.1 hmem
      rcases List.mem_append.1 hmem with hmem | hmem
      · exact (hlines line hline).return_not_mem hmem
      · exact absurd hmem (by decide)
    · exact absurd hmem (by decide)
  · have hreceived : e.frame.received = e.frame := by
      refine (Frame.received_event_eq_self_iff _ _ _).2
        ⟨⟨htopic.unbroken.return_not_mem, htopic.head⟩, hdata.unbroken.return_not_mem, ?_⟩
      rw [hdata.unbroken.one_line]
      exact List.forall_mem_singleton.2 hdata.head
    have hfits : e.frame.Fits := ⟨hsequence, htopic.unbroken.lineFeed_not_mem⟩
    have hstream : chunks.flatten = Frame.stream (before ++ [e.frame]) :=
      hchunks.trans (Frame.stream_concat before e.frame).symm
    obtain ⟨hframes, hbuffer⟩ := Frame.pushAll_stream_concat hfits before hstream
    rw [hreceived] at hframes
    exact ⟨hframes, congrArg Decoder.mk hbuffer⟩

end Event

end IssueTracker
