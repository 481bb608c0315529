/-
  IssueTracker/Proofs/Stream/Recovery.lean --- after a blank line the stream starts afresh.

  Bytes that end with a blank line leave at most one line feed behind, the last one of a run of
  odd length (`takeBlocks_snd_of_endsBlank`).  A line feed in front of bytes changes no frame
  (`frames_lineFeed`): either the next byte is one too, and the two of them end a block without
  lines, or the line feed becomes an empty line in front of the block that follows, which says
  nothing.  So what was fed before, whatever it was, has no part in what comes of later bytes.
-/
import IssueTracker.Proofs.Stream.Blocks
import IssueTracker.Proofs.Stream.RoundTrip

set_option autoImplicit false

namespace IssueTracker

/-! ## Empty lines -/

/-- A line feed is the byte of its character. -/
theorem Text.Utf8.decode_lineFeed (bs : List UInt8) :
    decode (Decoder.lineFeed :: bs) = '\n' :: decode bs := by
  have hnext : next Decoder.lineFeed bs = (some '\n', bs) := next_of_lt (n := 10) (by decide) bs
  rw [decode, hnext]
  rfl

namespace Frame

/-- An empty line says nothing. -/
theorem Fields.addLine_nil (fs : Fields) : fs.addLine [] = fs := rfl

/-- An empty line in front of a block does not matter. -/
theorem ofBlock?_lineFeed (block : List UInt8) :
    ofBlock? (Decoder.lineFeed :: block) = ofBlock? block := by
  have hsplit : Text.split '\n' ('\n' :: Text.Utf8.decode block) =
      [] :: Text.split '\n' (Text.Utf8.decode block) := if_pos rfl
  rw [ofBlock?, Text.Utf8.decode_lineFeed, readBlock?, hsplit, List.foldl_cons,
    Fields.addLine_nil]
  rfl

/-- A block without lines is no frame. -/
theorem ofBlock?_nil : ofBlock? [] = none := by
  rw [ofBlock?, Text.Utf8.decode]
  rfl

end Frame

namespace Decoder

variable {bs block rest p : List UInt8}

/-! ## Frames -/

/-- The frames of the blocks that are complete. -/
def frames (bs : List UInt8) : List Frame := (takeBlocks bs).1.filterMap Frame.ofBlock?

theorem frames_of_none (hnone : takeBlock? bs = none) : frames bs = [] := by
  rw [frames, takeBlocks_of_none hnone]
  rfl

theorem frames_of_some (hsome : takeBlock? bs = some (block, rest)) :
    frames bs = (Frame.ofBlock? block).toList ++ frames rest := by
  rw [frames, takeBlocks_of_some hsome, List.filterMap_cons]
  cases Frame.ofBlock? block <;> rfl

/-- The frames of two pieces are those of the first, and then those of what it leaves with the
second behind it. -/
theorem frames_append (bs more : List UInt8) :
    frames (bs ++ more) = frames bs ++ frames ((takeBlocks bs).2 ++ more) := by
  rw [frames, takeBlocks_append, List.filterMap_append]
  rfl

/-- However bytes are cut into pieces, these are the frames that come of them. -/
theorem pushAll_frames (chunks : List (List UInt8)) :
    (pushAll {} chunks).1.flatten = frames (dropReturns chunks.flatten) :=
  (pushAll_eq rfl chunks).1

/-! ## Line feeds in front -/

/-- A line feed in front changes no frame. -/
theorem frames_lineFeed (bs : List UInt8) : frames (lineFeed :: bs) = frames bs := by
  induction bs with
  | nil => rw [frames_of_none rfl, frames_of_none rfl]
  | cons b bs ih =>
      by_cases hb : b = lineFeed
      · -- The two line feeds are a block of their own, and the ones behind them are fewer.
        subst hb
        rw [frames_of_some (takeBlock?_pair bs), Frame.ofBlock?_nil, ih]
        rfl
      · have hpair : ¬ (lineFeed = lineFeed ∧ (b :: bs).head? = some lineFeed) :=
          fun h => hb (Option.some.inj h.2)
        have hfirst := takeBlock?_cons hpair
        cases hfound : takeBlock? (b :: bs) with
        | none =>
            rw [hfound] at hfirst
            rw [frames_of_none hfirst, frames_of_none hfound]
        | some found =>
            obtain ⟨block, rest⟩ := found
            rw [hfound] at hfirst
            rw [frames_of_some hfirst, frames_of_some hfound, Frame.ofBlock?_lineFeed]

theorem frames_replicate (n : Nat) (bs : List UInt8) :
    frames (List.replicate n lineFeed ++ bs) = frames bs := by
  induction n with
  | zero => rfl
  | succ n ih => rw [List.replicate_succ, List.cons_append, frames_lineFeed, ih]

/-! ## Bytes that end with a blank line -/

/-- There are no bytes, or the last two of them are line feeds. -/
def EndsBlank (bs : List UInt8) : Prop := bs = [] ∨ [lineFeed, lineFeed] <:+ bs

instance (bs : List UInt8) : Decidable (EndsBlank bs) := inferInstanceAs (Decidable (_ ∨ _))

/-- Such bytes leave nothing but line feeds. -/
theorem takeBlocks_snd_of_endsBlank (h : EndsBlank bs) :
    ∃ n, (takeBlocks bs).2 = List.replicate n lineFeed := by
  have hcut := cut_takeBlocks bs
  have hrest : (takeBlocks bs).2 <:+ bs := ⟨_, hcut.bytes.symm⟩
  rcases h with rfl | hpair
  · exact ⟨0, List.suffix_nil.1 hrest⟩
  · -- Two bytes that are left would be the last two, and these end a block.
    have hshort : (takeBlocks bs).2.length ≤ [lineFeed, lineFeed].length := by
      refine Nat.le_of_not_le fun hle => hcut.rest ?_
      exact (List.suffix_of_suffix_length_le hpair hrest hle).isInfix
    have hlast : (takeBlocks bs).2 <:+ [lineFeed, lineFeed] :=
      List.suffix_of_suffix_length_le hrest hpair hshort
    refine ⟨(takeBlocks bs).2.length, List.eq_replicate_of_mem fun b hb => ?_⟩
    have hmem := hlast.subset hb
    simpa using hmem

/-- Behind such bytes the frames are those of the later bytes alone. -/
theorem EndsBlank.frames_append (h : EndsBlank bs) (more : List UInt8) :
    frames (bs ++ more) = frames bs ++ frames more := by
  obtain ⟨n, hrest⟩ := takeBlocks_snd_of_endsBlank h
  rw [Decoder.frames_append, hrest, frames_replicate]

theorem dropReturns_replicate (n : Nat) :
    dropReturns (List.replicate n lineFeed) = List.replicate n lineFeed := by
  rw [dropReturns, List.filter_replicate_of_pos (by decide)]

/-- Whatever bytes were fed, be they no text, no blocks or blocks of another stream: if they are
none, or end with a blank line, then later bytes give the frames that they give a decoder of
their own, and the bytes before give theirs.  It does not matter how the bytes are cut into
pieces, nor how many blank lines stand between.  Frames that were written come back from behind
such bytes as they come back alone. -/
theorem later_frames_stand_alone (p : List UInt8) (hp : EndsBlank (dropReturns p)) :
    (∀ q (chunks before after : List (List UInt8)),
      chunks.flatten = p ++ q → before.flatten = p → after.flatten = q →
        (pushAll {} chunks).1.flatten =
          (pushAll {} before).1.flatten ++ (pushAll {} after).1.flatten) ∧
      (∀ q n (chunks : List (List UInt8)),
        chunks.flatten = p ++ List.replicate n lineFeed ++ q →
          (pushAll {} chunks).1.flatten =
            (pushAll {} [p]).1.flatten ++ (pushAll {} [q]).1.flatten) ∧
      ∀ fs (chunks : List (List UInt8)), (∀ f ∈ fs, f.Fits) →
        chunks.flatten = p ++ Frame.stream fs →
          (pushAll {} chunks).1.flatten =
            (pushAll {} [p]).1.flatten ++ fs.map Frame.received := by
  have hall : ∀ q (chunks before after : List (List UInt8)),
      chunks.flatten = p ++ q → before.flatten = p → after.flatten = q →
        (pushAll {} chunks).1.flatten =
          (pushAll {} before).1.flatten ++ (pushAll {} after).1.flatten := by
    intro q chunks before after hchunks hbefore hafter
    rw [pushAll_frames, pushAll_frames, pushAll_frames, hchunks, hbefore, hafter,
      dropReturns_append, hp.frames_append]
  have hone : ∀ bs : List UInt8, [bs].flatten = bs := fun _ => List.flatten_singleton
  refine ⟨hall, ?_, ?_⟩
  · intro q n chunks hchunks
    have hblank : frames (dropReturns (List.replicate n lineFeed ++ q)) =
        frames (dropReturns q) := by
      rw [dropReturns_append, dropReturns_replicate, frames_replicate]
    rw [List.append_assoc] at hchunks
    rw [hall _ chunks [p] [List.replicate n lineFeed ++ q] hchunks (hone _) (hone _),
      pushAll_frames [q], pushAll_frames [_ ++ q], hone, hone, hblank]
  · intro fs chunks hfs hchunks
    rw [hall _ chunks [p] [Frame.stream fs] hchunks (hone _) (hone _),
      (Frame.pushAll_stream hfs (hone _)).1]

/-- Behind an event that breaks off in its number, a broken character, and three line feeds with a
carriage return between them, the next event comes as it was written. -/
theorem event_behind_garbage :
    let garbage : List UInt8 := "event:t\nid:7".toUTF8.toList ++ [0xC3, 10, 13, 10, 10]
    EndsBlank (dropReturns garbage) ∧
      (pushAll {} [garbage ++ Frame.stream [.event 1 "t" "x"]]).1.flatten = [.event 1 "t" "x"] := by
  intro garbage
  have hblank : EndsBlank (dropReturns garbage) := by decide +kernel
  obtain ⟨-, -, hframes⟩ := later_frames_stand_alone garbage hblank
  refine ⟨hblank, (hframes [.event 1 "t" "x"] _ (by decide) List.flatten_singleton).trans ?_⟩
  decide +kernel

end Decoder

end IssueTracker
