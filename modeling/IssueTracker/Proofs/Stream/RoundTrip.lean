/-
  IssueTracker/Proofs/Stream/RoundTrip.lean --- what comes of frames that were written and read.

  A frame is written as lines that are not empty, and an empty line behind them.  The decoder
  drops the carriage returns, cuts at the empty line, and reads each of the lines: `received`
  says what it makes of the frame.  No line of data is empty or starts like another
  line, since the name of the field stands before it.
-/
import IssueTracker.Proofs.Stream.Chunks
import IssueTracker.Proofs.Text.Utf8
import Mathlib.Data.List.Basic

set_option autoImplicit false

namespace IssueTracker

namespace Frame

open Fields (dropSpace)

/-- Text without carriage returns. -/
def clean (cs : List Char) : List Char := cs.filter (· ≠ '\r')

/-- What is read of a topic. -/
def cleanTopic (topic : List Char) : List Char := dropSpace (clean topic)

/-- What is read of data. -/
def cleanData (data : List Char) : List Char :=
  Text.joinWith '\n' ((Text.split '\n' (clean data)).map dropSpace)

/-- What is read of a frame. -/
def received : Frame → Frame
  | event id topic data =>
      event id (String.ofList (cleanTopic topic.toList)) (String.ofList (cleanData data.toList))
  | keepalive => keepalive

/-- A frame that has a place in the stream: its number has at most 64 bits, and its topic is one
line. -/
def Fits : Frame → Prop
  | event id topic _ => id ≤ Text.maxWord64 ∧ '\n' ∉ topic.toList
  | keepalive => True

instance : (f : Frame) → Decidable f.Fits
  | event id topic _ => inferInstanceAs (Decidable (id ≤ Text.maxWord64 ∧ '\n' ∉ topic.toList))
  | keepalive => inferInstanceAs (Decidable True)

/-- The bytes of frames, one behind the other. -/
def stream (fs : List Frame) : List UInt8 := fs.flatMap fun f => Text.Utf8.bytes f.write

variable {id : Nat} {topic data : String} {f : Frame} {cs line : List Char}

theorem stream_concat (fs : List Frame) (f : Frame) :
    stream (fs ++ [f]) = stream fs ++ Text.Utf8.bytes f.write := by
  rw [stream, List.flatMap_append, List.flatMap_singleton]
  rfl

/-! ## Lines -/

/-- The lines of a frame, the empty one apart. -/
def lines : Frame → List (List Char)
  | event id topic data =>
      ("id:".toList ++ Text.digits id) :: ("event:".toList ++ topic.toList) ::
        (Text.split '\n' data.toList).map fun line => "data:".toList ++ dropReturn line
  | keepalive => [':' :: keepaliveWord]

theorem chars_eq (f : Frame) : f.chars = f.lines.flatMap (· ++ ['\n']) ++ ['\n'] := by
  cases f with
  | keepalive => rfl
  | event id topic data =>
      have hdata : (Text.split '\n' data.toList).flatMap dataLine =
          ((Text.split '\n' data.toList).map fun line =>
            "data:".toList ++ dropReturn line).flatMap (· ++ ['\n']) := by
        rw [List.flatMap_map]
        rfl
      have hchars : (event id topic data).chars =
          "id:".toList ++ Text.digits id ++ '\n' :: "event:".toList ++ topic.toList ++ '\n' ::
            (Text.split '\n' data.toList).flatMap dataLine ++ ['\n'] := rfl
      rw [hchars, hdata]
      simp only [lines, List.flatMap_cons, List.append_assoc, List.cons_append, List.nil_append]

theorem clean_append (xs ys : List Char) : clean (xs ++ ys) = clean xs ++ clean ys :=
  List.filter_append xs ys

theorem clean_of_not_mem (hcs : '\r' ∉ cs) : clean cs = cs := by
  apply List.filter_eq_self.2
  intro c hc
  have hne : c ≠ '\r' := fun heq => hcs (heq ▸ hc)
  simpa using hne

theorem not_mem_clean (cs : List Char) : '\r' ∉ clean cs := by
  simp [clean]

/-- The carriage return that the writer drops does not matter for the reader. -/
theorem clean_dropReturn (line : List Char) : clean (dropReturn line) = clean line := by
  rw [dropReturn]
  split
  · rename_i hlast
    obtain ⟨front, rfl⟩ := List.getLast?_eq_some_iff.1 hlast
    rw [List.dropLast_concat, clean_append]
    exact (List.append_nil _).symm
  · rfl

/-- The lines of an event as they are read. -/
theorem map_clean_lines_event (id : Nat) (topic data : String) :
    (event id topic data).lines.map clean =
      ("id:".toList ++ Text.digits id) :: ("event:".toList ++ clean topic.toList) ::
        (Text.split '\n' (clean data.toList)).map fun line => "data:".toList ++ line := by
  have hdigits : clean (Text.digits id) = Text.digits id :=
    clean_of_not_mem (Text.not_mem_digits rfl id)
  have hdata : ((Text.split '\n' data.toList).map fun line =>
        "data:".toList ++ dropReturn line).map clean =
      (Text.split '\n' (clean data.toList)).map fun line => "data:".toList ++ line := by
    have hsplit : Text.split '\n' (clean data.toList) = _ :=
      Text.split_filter (p := (· ≠ '\r')) rfl data.toList
    rw [hsplit, List.map_map, List.map_map]
    refine List.map_congr_left fun line _ => ?_
    exact (clean_append _ _).trans (congrArg ("data:".toList ++ ·) (clean_dropReturn line))
  rw [lines, List.map_cons, List.map_cons, hdata, clean_append, clean_append, hdigits]
  rfl

/-- The lines of a frame as they are read are not empty, and each is one line. -/
theorem line_of_mem_map_clean (hf : f.Fits) (hline : line ∈ f.lines.map clean) :
    line ≠ [] ∧ '\n' ∉ line := by
  cases f with
  | keepalive =>
      rw [List.mem_singleton.1 hline]
      decide
  | event id topic data =>
      rw [map_clean_lines_event, List.mem_cons, List.mem_cons, List.mem_map] at hline
      rcases hline with rfl | rfl | ⟨line, hline, rfl⟩
      · refine ⟨nofun, ?_⟩
        rw [List.mem_append, not_or]
        exact ⟨by decide, Text.not_mem_digits rfl id⟩
      · refine ⟨nofun, ?_⟩
        rw [List.mem_append, not_or]
        exact ⟨by decide, fun hmem => hf.2 (List.mem_filter.1 hmem).1⟩
      · refine ⟨nofun, ?_⟩
        rw [List.mem_append, not_or]
        exact ⟨by decide, Text.not_mem_of_mem_split hline⟩

theorem lines_ne_nil (f : Frame) : f.lines ≠ [] := by
  cases f <;> exact nofun

/-! ## Bytes -/

/-- The block of a frame: its lines without carriage returns, one line feed between them. -/
def block (f : Frame) : List UInt8 :=
  Text.Utf8.encode (Text.joinWith '\n' (f.lines.map clean))

theorem encode_joinWith (ls : List (List Char)) :
    Text.Utf8.encode (Text.joinWith '\n' ls) =
      Text.joinWith Decoder.lineFeed (ls.map Text.Utf8.encode) := by
  induction ls with
  | nil => rfl
  | cons l ls ih =>
      cases ls with
      | nil => rfl
      | cons m ls =>
          rw [Text.joinWith, Text.Utf8.encode_append, Text.Utf8.encode_cons, ih]
          rfl

theorem encode_flatMap_lines (ls : List (List Char)) :
    Text.Utf8.encode (ls.flatMap (· ++ ['\n'])) =
      (ls.map Text.Utf8.encode).flatMap (· ++ [Decoder.lineFeed]) := by
  induction ls with
  | nil => rfl
  | cons l ls ih =>
      rw [List.flatMap_cons, Text.Utf8.encode_append, Text.Utf8.encode_append, ih]
      rfl

/-- What the decoder keeps of a frame. -/
theorem dropReturns_write (f : Frame) :
    Decoder.dropReturns (Text.Utf8.bytes f.write) =
      ((f.lines.map clean).map Text.Utf8.encode).flatMap (· ++ [Decoder.lineFeed]) ++
        [Decoder.lineFeed] := by
  have hclean : clean f.chars = (f.lines.map clean).flatMap (· ++ ['\n']) ++ ['\n'] := by
    rw [chars_eq, clean_append, List.flatMap_map]
    congr 1
    simp only [clean, List.filter_flatMap]
    congr 1
    funext l
    exact clean_append l ['\n']
  have hdrop : Decoder.dropReturns (Text.Utf8.bytes f.write) = Text.Utf8.encode (clean f.chars) := by
    rw [Text.Utf8.bytes, write, String.toList_ofList]
    exact Text.Utf8.filter_encode (d := '\r') (by decide) f.chars
  rw [hdrop, hclean, Text.Utf8.encode_append, encode_flatMap_lines]
  rfl

/-- The first block of a stream is that of its first frame. -/
theorem takeBlock?_write (hf : f.Fits) (bs : List UInt8) :
    Decoder.takeBlock? (Decoder.dropReturns (Text.Utf8.bytes f.write) ++ bs) =
      some (f.block, bs) := by
  have hlines : ∀ l ∈ (f.lines.map clean).map Text.Utf8.encode,
      l ≠ [] ∧ Decoder.lineFeed ∉ l := by
    intro l hl
    obtain ⟨line, hline, rfl⟩ := List.mem_map.1 hl
    obtain ⟨hne, hone⟩ := line_of_mem_map_clean hf hline
    exact ⟨Text.Utf8.encode_ne_nil hne, Text.Utf8.not_mem_encode (d := '\n') (by decide) hone⟩
  have hne : (f.lines.map clean).map Text.Utf8.encode ≠ [] := by
    simpa using lines_ne_nil f
  rw [dropReturns_write, block, encode_joinWith, List.append_assoc]
  exact Decoder.takeBlock?_lines hne hlines bs

/-- The blocks of a stream are those of its frames, and nothing is left. -/
theorem takeBlocks_stream {fs : List Frame} (hfs : ∀ f ∈ fs, f.Fits) :
    Decoder.takeBlocks (Decoder.dropReturns (stream fs)) = (fs.map block, []) := by
  induction fs with
  | nil => exact Decoder.takeBlocks_of_none rfl
  | cons f fs ih =>
      have hfirst := takeBlock?_write (hfs f List.mem_cons_self) (Decoder.dropReturns (stream fs))
      have hsplit : Decoder.dropReturns (stream (f :: fs)) =
          Decoder.dropReturns (Text.Utf8.bytes f.write) ++ Decoder.dropReturns (stream fs) := by
        rw [stream, List.flatMap_cons]
        exact Decoder.dropReturns_append _ _
      rw [hsplit, Decoder.takeBlocks_of_some hfirst,
        ih fun g hg => hfs g (List.mem_cons_of_mem _ hg)]
      rfl

/-! ## Reading the lines -/

/-- A line that a name starts is a field. -/
theorem addLine_named (fs : Fields) (name : List Char) (hne : name ≠ []) (hname : ':' ∉ name)
    (value : List Char) :
    fs.addLine (name ++ ':' :: value) = fs.addField name (dropSpace value) := by
  obtain ⟨c, name, rfl⟩ := List.exists_cons_of_ne_nil hne
  have hc : c ≠ ':' := fun heq => hname (by simp [heq])
  have hcut : Text.cut ':' (c :: (name ++ ':' :: value)) = (c :: name, some value) :=
    Text.cut_append_cons hname value
  rw [List.cons_append, Fields.addLine]
  · rw [hcut]
    rfl
  · intro remark heq
    exact hc (List.cons.inj heq).1

theorem dropSpace_of_head? (hcs : cs.head? ≠ some ' ') : dropSpace cs = cs := by
  cases cs with
  | nil => rfl
  | cons c cs =>
      have hc : c ≠ ' ' := by simpa using hcs
      rw [dropSpace]
      intro rest heq
      exact hc (List.cons.inj heq).1

/-- The line of a number. -/
theorem addLine_id (fs : Fields) (hid : id ≤ Text.maxWord64) :
    fs.addLine ("id:".toList ++ Text.digits id) = { fs with id := some id } := by
  have hspace : (Text.digits id).head? ≠ some ' ' := by
    intro hhead
    exact Text.not_mem_digits rfl id (List.mem_of_head? hhead)
  have hnamed := addLine_named fs "id".toList (by decide) (by decide) (Text.digits id)
  rw [Fields.addField, if_pos rfl, dropSpace_of_head? hspace, Text.unsigned?_digits hid] at hnamed
  exact hnamed

/-- The line of a topic. -/
theorem addLine_topic (fs : Fields) (topic : List Char) :
    fs.addLine ("event:".toList ++ topic) = { fs with topic := some (dropSpace topic) } := by
  have hnamed := addLine_named fs "event".toList (by decide) (by decide) topic
  rw [Fields.addField, if_neg (by decide), if_pos rfl] at hnamed
  exact hnamed

/-- A line of data. -/
theorem addLine_data (fs : Fields) (line : List Char) :
    fs.addLine ("data:".toList ++ line) = fs.addField "data".toList (dropSpace line) :=
  addLine_named fs "data".toList (by decide) (by decide) line

/-- The first line of data. -/
theorem addLine_data_of_none (fs : Fields) (hnone : fs.data = none) (line : List Char) :
    fs.addLine ("data:".toList ++ line) = { fs with data := some (dropSpace line) } := by
  rw [addLine_data, Fields.addField, if_neg (by decide), if_neg (by decide), if_pos rfl, hnone]

/-- A line of data behind others is joined to them. -/
theorem addLine_data_of_some (fs : Fields) {before : List Char} (hbefore : fs.data = some before)
    (line : List Char) :
    fs.addLine ("data:".toList ++ line) =
      { fs with data := some (before ++ '\n' :: dropSpace line) } := by
  rw [addLine_data, Fields.addField, if_neg (by decide), if_neg (by decide), if_pos rfl, hbefore]

theorem joinWith_append_cons (xs ys : List Char) (ls : List (List Char)) :
    Text.joinWith '\n' ((xs ++ '\n' :: ys) :: ls) = Text.joinWith '\n' (xs :: ys :: ls) := by
  cases ls with
  | nil => rfl
  | cons l ls => simp [Text.joinWith]

/-- Lines of data are joined, one after the other. -/
theorem foldl_addLine_data (ls : List (List Char)) (fs : Fields) (before : List Char)
    (hbefore : fs.data = some before) :
    (ls.map fun line => "data:".toList ++ line).foldl Fields.addLine fs =
      { fs with data := some (Text.joinWith '\n' (before :: ls.map dropSpace)) } := by
  induction ls generalizing fs before with
  | nil =>
      cases fs
      simp only at hbefore
      simp [hbefore, Text.joinWith]
  | cons l ls ih =>
      rw [List.map_cons, List.foldl_cons, addLine_data_of_some fs hbefore, ih _ _ rfl, List.map_cons,
        joinWith_append_cons]

/-- The lines of a frame are read as what is received of it. -/
theorem readBlock?_lines (hf : f.Fits) :
    readBlock? (Text.joinWith '\n' (f.lines.map clean)) = some f.received := by
  have hone : ∀ l ∈ f.lines.map clean, '\n' ∉ l := fun l hl => (line_of_mem_map_clean hf hl).2
  have hne : f.lines.map clean ≠ [] := by simpa using lines_ne_nil f
  rw [readBlock?, Text.split_joinWith hne hone]
  cases f with
  | keepalive => rfl
  | event id topic data =>
      rw [map_clean_lines_event, List.foldl_cons, addLine_id {} hf.1, List.foldl_cons,
        addLine_topic]
      cases hsplit : Text.split '\n' (clean data.toList) with
      | nil => exact absurd hsplit (Text.split_ne_nil _ _)
      | cons line ls =>
          rw [List.map_cons, List.foldl_cons, addLine_data_of_none _ rfl,
            foldl_addLine_data ls _ _ rfl]
          simp only [received, cleanData, hsplit, List.map_cons]
          rfl

/-- The block of a frame is read as what is received of it. -/
theorem ofBlock?_block (hf : f.Fits) : ofBlock? f.block = some f.received := by
  rw [ofBlock?, block, Text.Utf8.decode_encode, readBlock?_lines hf]

/-! ## Frames that come back as they were -/

theorem dropSpace_sublist (cs : List Char) : (dropSpace cs).Sublist cs := by
  unfold dropSpace
  split
  · exact List.sublist_cons_self _ _
  · exact List.Sublist.refl _

theorem dropSpace_eq_self_iff : dropSpace cs = cs ↔ cs.head? ≠ some ' ' := by
  refine ⟨?_, dropSpace_of_head?⟩
  rintro hsame hhead
  obtain ⟨rest, rfl⟩ := List.head?_eq_some_iff.1 hhead
  have hlength := congrArg List.length hsame
  simp [dropSpace] at hlength

theorem cleanTopic_eq_self_iff : cleanTopic cs = cs ↔ '\r' ∉ cs ∧ cs.head? ≠ some ' ' := by
  constructor
  · intro hsame
    have hreturn : '\r' ∉ cs := by
      rw [← hsame]
      exact fun hmem => not_mem_clean cs ((dropSpace_sublist _).subset hmem)
    rw [cleanTopic, clean_of_not_mem hreturn] at hsame
    exact ⟨hreturn, dropSpace_eq_self_iff.1 hsame⟩
  · rintro ⟨hreturn, hspace⟩
    rw [cleanTopic, clean_of_not_mem hreturn, dropSpace_of_head? hspace]

theorem cleanData_eq_self_iff :
    cleanData cs = cs ↔ '\r' ∉ cs ∧ ∀ line ∈ Text.split '\n' cs, line.head? ≠ some ' ' := by
  constructor
  · intro hsame
    have hlines : (Text.split '\n' (clean cs)).map dropSpace = Text.split '\n' cs := by
      have hone : ∀ l ∈ (Text.split '\n' (clean cs)).map dropSpace, '\n' ∉ l := by
        intro l hl
        obtain ⟨line, hline, rfl⟩ := List.mem_map.1 hl
        exact fun hmem => Text.not_mem_of_mem_split hline ((dropSpace_sublist _).subset hmem)
      have hne : (Text.split '\n' (clean cs)).map dropSpace ≠ [] := by
        simpa using Text.split_ne_nil '\n' (clean cs)
      rw [← Text.split_joinWith hne hone]
      exact congrArg (Text.split '\n') hsame
    have hreturn : '\r' ∉ cs := by
      rw [← hsame]
      intro hmem
      rcases Text.mem_joinWith hmem with heq | ⟨l, hl, hmem⟩
      · exact absurd heq (by decide)
      · obtain ⟨line, hline, rfl⟩ := List.mem_map.1 hl
        have hclean := Text.mem_of_mem_split hline ((dropSpace_sublist _).subset hmem)
        exact not_mem_clean cs hclean
    rw [clean_of_not_mem hreturn] at hlines
    refine ⟨hreturn, fun line hline => dropSpace_eq_self_iff.1 ?_⟩
    exact List.map_inj_left.1 (hlines.trans (List.map_id' _).symm) line hline
  · rintro ⟨hreturn, hspace⟩
    rw [cleanData, clean_of_not_mem hreturn]
    have hlines : (Text.split '\n' cs).map dropSpace = Text.split '\n' cs :=
      (List.map_congr_left fun line hline => dropSpace_of_head? (hspace line hline)).trans
        (List.map_id' _)
    rw [hlines, Text.joinWith_split]

/-- An event comes back as it was if it has no carriage return, and no space starts its topic or
a line of its data. -/
theorem received_event_eq_self_iff (id : Nat) (topic data : String) :
    received (event id topic data) = event id topic data ↔
      ('\r' ∉ topic.toList ∧ topic.toList.head? ≠ some ' ') ∧
        '\r' ∉ data.toList ∧ ∀ line ∈ Text.split '\n' data.toList, line.head? ≠ some ' ' := by
  have htext : ∀ (cs : List Char) (s : String), String.ofList cs = s ↔ cs = s.toList := by
    intro cs s
    rw [← String.toList_inj, String.toList_ofList]
  rw [← cleanTopic_eq_self_iff, ← cleanData_eq_self_iff, ← htext, ← htext]
  simp only [received, event.injEq, true_and]

/-! ## Streams -/

/-- A frame with empty data. -/
def withoutData : Frame → Frame
  | event id topic _ => event id topic ""
  | keepalive => keepalive

/-- Data has no part in what else is received of a frame. -/
theorem withoutData_received (f : Frame) :
    f.received.withoutData = f.withoutData.received.withoutData := by
  cases f with
  | event id topic data => simp only [received, withoutData]
  | keepalive => rfl

theorem fits_withoutData (f : Frame) : f.withoutData.Fits ↔ f.Fits := by
  cases f <;> rfl

/-- The frames of a stream, however its bytes are cut into pieces. -/
theorem pushAll_stream {fs : List Frame} {chunks : List (List UInt8)} (hfs : ∀ f ∈ fs, f.Fits)
    (hchunks : chunks.flatten = stream fs) :
    (Decoder.pushAll {} chunks).1.flatten = fs.map received ∧
      (Decoder.pushAll {} chunks).2.buffer = [] := by
  obtain ⟨hframes, hbuffer⟩ := Decoder.pushAll_eq (d := {}) rfl chunks
  have hblocks := takeBlocks_stream hfs
  rw [List.nil_append, hchunks, hblocks] at hframes hbuffer
  refine ⟨hframes.trans ?_, hbuffer⟩
  rw [List.filterMap_map]
  exact List.filterMap_eq_map_iff_forall_eq_some.2 fun f hf => ofBlock?_block (hfs f hf)

/-- Frames that are written, cut into pieces anywhere and read again come back one for one and in
order, and nothing is left over: a keepalive as it was, an event with its number, its topic and
its data, both without carriage returns and the topic and each line of data without one
space at the front.  Whatever the data of events is, it makes no other frames, and no other
numbers and topics. -/
theorem stream_round_trip (fs : List Frame) (chunks : List (List UInt8))
    (hfs : ∀ f ∈ fs, f.Fits) (hchunks : chunks.flatten = stream fs) :
    (Decoder.pushAll {} chunks).1.flatten = fs.map received ∧
      (Decoder.pushAll {} chunks).2.buffer = [] ∧
      (∀ id topic data, received (event id topic data) = event id topic data ↔
        ('\r' ∉ topic.toList ∧ topic.toList.head? ≠ some ' ') ∧
          '\r' ∉ data.toList ∧ ∀ line ∈ Text.split '\n' data.toList, line.head? ≠ some ' ') ∧
      ∀ fs' chunks', fs'.map withoutData = fs.map withoutData → chunks'.flatten = stream fs' →
        (Decoder.pushAll {} chunks').1.flatten.map withoutData =
          (Decoder.pushAll {} chunks).1.flatten.map withoutData := by
  obtain ⟨hframes, hbuffer⟩ := pushAll_stream hfs hchunks
  refine ⟨hframes, hbuffer, received_event_eq_self_iff, ?_⟩
  intro fs' chunks' hsame hchunks'
  have hfs' : ∀ f ∈ fs', f.Fits := by
    intro f hf
    have hmem : f.withoutData ∈ fs.map withoutData := hsame ▸ List.mem_map_of_mem hf
    obtain ⟨g, hg, heq⟩ := List.mem_map.1 hmem
    rw [← fits_withoutData, ← heq, fits_withoutData]
    exact hfs g hg
  have hrest : ∀ gs : List Frame, (gs.map received).map withoutData =
      (gs.map withoutData).map fun g => g.received.withoutData := by
    intro gs
    rw [List.map_map, List.map_map]
    exact List.map_congr_left fun g _ => withoutData_received g
  rw [(pushAll_stream hfs' hchunks').1, hframes, hrest, hrest, hsame]

/-- A stream that comes byte by byte, with data that looks like other lines. -/
theorem stream_round_trip_bytewise :
    (Decoder.pushAll {} ((stream [keepalive, event 7 "bead" "é\r\n x\n\nid:9", keepalive]).map
        fun b => [b])).1.flatten =
      [keepalive, event 7 "bead" "é\nx\n\nid:9", keepalive] := by
  have hread := stream_round_trip [keepalive, event 7 "bead" "é\r\n x\n\nid:9", keepalive]
    ((stream [keepalive, event 7 "bead" "é\r\n x\n\nid:9", keepalive]).map fun b => [b])
    (by decide) (List.flatMap_singleton' _)
  exact hread.1.trans (by decide)

end Frame

end IssueTracker
