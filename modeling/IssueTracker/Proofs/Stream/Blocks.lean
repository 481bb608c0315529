/-
  IssueTracker/Proofs/Stream/Blocks.lean --- which piece of the stream gives which frame.

  `Cut` says how bytes fall into blocks: each block ends at the first pair of line feeds behind its
  start, and what is left has no such pair.  The decoder cuts like that (`cut_takeBlocks`).
  `Feeds` follows a decoder from piece to piece: a block belongs to the piece with the last line
  feed of the pair that ends it, and after every piece no complete block is left.  Over a whole
  stream no byte but the carriage returns is lost, and none is taken twice (`Feeds.cut`).
-/
import IssueTracker.Proofs.Stream.Chunks

set_option autoImplicit false

namespace IssueTracker

namespace Decoder

variable {b : UInt8} {bs block rest : List UInt8} {blocks : List (List UInt8)} {d d' : Decoder}

/-! ## Pairs of line feeds -/

/-- Do two line feeds stand side by side somewhere? -/
def HasPair (bs : List UInt8) : Prop := [lineFeed, lineFeed] <:+: bs

theorem hasPair_cons :
    HasPair (b :: bs) ↔ (b = lineFeed ∧ bs.head? = some lineFeed) ∨ HasPair bs := by
  unfold HasPair
  rw [List.infix_cons_iff]
  refine or_congr_left ?_
  cases bs with
  | nil => simp
  | cons c bs => simp [List.cons_prefix_cons, eq_comm]

theorem not_hasPair_nil : ¬ HasPair [] := by
  simp [HasPair]

/-- No block is complete where no pair stands. -/
theorem takeBlock?_eq_none_iff : takeBlock? bs = none ↔ ¬ HasPair bs := by
  induction bs with
  | nil => exact ⟨fun _ => not_hasPair_nil, fun _ => rfl⟩
  | cons b bs ih =>
      rw [hasPair_cons, not_or]
      by_cases hpair : b = lineFeed ∧ bs.head? = some lineFeed
      · obtain ⟨rfl, hhead⟩ := hpair
        obtain ⟨bs, rfl⟩ := List.head?_eq_some_iff.1 hhead
        simp [takeBlock?_pair]
      · rw [takeBlock?_cons hpair, Option.map_eq_none_iff, ih]
        exact ⟨fun h => ⟨hpair, h⟩, fun h => h.2⟩

/-- The first block ends at the first pair. -/
theorem of_takeBlock?_eq_some (h : takeBlock? bs = some (block, rest)) :
    bs = block ++ lineFeed :: lineFeed :: rest ∧ ¬ HasPair (block ++ [lineFeed]) := by
  induction bs generalizing block with
  | nil => simp [takeBlock?] at h
  | cons b bs ih =>
      by_cases hpair : b = lineFeed ∧ bs.head? = some lineFeed
      · obtain ⟨rfl, hhead⟩ := hpair
        obtain ⟨bs, rfl⟩ := List.head?_eq_some_iff.1 hhead
        rw [takeBlock?_pair, Option.some.injEq, Prod.mk.injEq] at h
        obtain ⟨rfl, rfl⟩ := h
        exact ⟨rfl, by simp [hasPair_cons, not_hasPair_nil]⟩
      · rw [takeBlock?_cons hpair, Option.map_eq_some_iff] at h
        obtain ⟨⟨before, behind⟩, hfound, heq⟩ := h
        rw [Prod.mk.injEq] at heq
        obtain ⟨rfl, rfl⟩ := heq
        obtain ⟨rfl, hbefore⟩ := ih hfound
        refine ⟨rfl, ?_⟩
        -- The byte behind the first one is the same, whether the block ends there or goes on.
        have hhead : (before ++ lineFeed :: lineFeed :: behind).head? =
            (before ++ [lineFeed]).head? := by
          cases before <;> rfl
        rw [hhead] at hpair
        rw [List.cons_append, hasPair_cons, not_or]
        exact ⟨hpair, hbefore⟩

/-! ## Bytes in blocks -/

/-- A block with the pair of line feeds that ends it. -/
def terminated (block : List UInt8) : List UInt8 := block ++ [lineFeed, lineFeed]

/-- The bytes are these blocks, each up to the first pair of line feeds, and a rest without one. -/
structure Cut (bs : List UInt8) (blocks : List (List UInt8)) (rest : List UInt8) : Prop where
  bytes : bs = blocks.flatMap terminated ++ rest
  block : ∀ block ∈ blocks, ¬ HasPair (block ++ [lineFeed])
  rest : ¬ HasPair rest

theorem Cut.nil (h : ¬ HasPair bs) : Cut bs [] bs where
  bytes := rfl
  block _ hmem := absurd hmem List.not_mem_nil
  rest := h

/-- What is cut on from a rest goes on from the blocks before it. -/
theorem Cut.append {more : List UInt8} {later : List (List UInt8)} {rest' : List UInt8}
    (h : Cut bs blocks rest) (hmore : Cut (rest ++ more) later rest') :
    Cut (bs ++ more) (blocks ++ later) rest' where
  bytes := by
    rw [h.bytes, List.append_assoc, hmore.bytes, List.flatMap_append, List.append_assoc]
  block block hmem := (List.mem_append.1 hmem).elim (h.block block) (hmore.block block)
  rest := hmore.rest

/-- The decoder cuts like that. -/
theorem cut_takeBlocks (bs : List UInt8) : Cut bs (takeBlocks bs).1 (takeBlocks bs).2 := by
  induction hlength : bs.length using Nat.strongRecOn generalizing bs with
  | _ n ih =>
      cases hfirst : takeBlock? bs with
      | none =>
          rw [takeBlocks_of_none hfirst]
          exact .nil (takeBlock?_eq_none_iff.1 hfirst)
      | some found =>
          obtain ⟨block, rest⟩ := found
          obtain ⟨hbytes, hblock⟩ := of_takeBlock?_eq_some hfirst
          have hrest := ih rest.length (hlength ▸ length_of_takeBlock? hfirst) rest rfl
          rw [takeBlocks_of_some hfirst]
          refine ⟨?_, ?_, hrest.rest⟩
          · rw [List.flatMap_cons, List.append_assoc, ← hrest.bytes, hbytes]
            simp [terminated]
          · exact List.forall_mem_cons.2 ⟨hblock, hrest.block⟩

/-! ## One piece -/

/-- A piece of the stream completes these blocks, and leaves no other. -/
structure Completes (d : Decoder) (chunk : List UInt8) (blocks : List (List UInt8))
    (d' : Decoder) : Prop where
  cut : Cut (d.buffer ++ dropReturns chunk) blocks d'.buffer
  noReturn : carriageReturn ∉ d'.buffer
  /-- The last line feed of each block came with the piece: it stands behind what was buffered. -/
  late : ∀ first block later, blocks = first ++ block :: later →
    d.buffer.length < ((first ++ [block]).flatMap terminated).length

theorem carriageReturn_not_mem_dropReturns (bs : List UInt8) :
    carriageReturn ∉ dropReturns bs := by
  simp [dropReturns]

/-- Feeding a piece gives the frames of the blocks that it completes. -/
theorem completes_push (hreturn : carriageReturn ∉ d.buffer) (hpair : ¬ HasPair d.buffer)
    (chunk : List UInt8) :
    ∃ blocks, Completes d chunk blocks (d.push chunk).2 ∧
      (d.push chunk).1 = blocks.filterMap Frame.ofBlock? := by
  have hcut := cut_takeBlocks (d.buffer ++ dropReturns chunk)
  refine ⟨(takeBlocks (d.buffer ++ dropReturns chunk)).1, ⟨hcut, ?_, ?_⟩, rfl⟩
  · intro hmem
    have hall : carriageReturn ∈ d.buffer ++ dropReturns chunk := by
      rw [hcut.bytes]
      exact List.mem_append_right _ hmem
    rcases List.mem_append.1 hall with hbuffer | hchunk
    · exact hreturn hbuffer
    · exact carriageReturn_not_mem_dropReturns chunk hchunk
  · intro first block later hblocks
    -- Otherwise the pair that ends the block would stand in the buffer.
    refine Nat.lt_of_not_le fun hle => hpair ?_
    have hbytes := hcut.bytes
    rw [hblocks, List.append_cons, List.flatMap_append, List.append_assoc] at hbytes
    have hall : (first ++ [block]).flatMap terminated <+: d.buffer ++ dropReturns chunk :=
      ⟨_, hbytes.symm⟩
    have hprefix : (first ++ [block]).flatMap terminated <+: d.buffer :=
      List.prefix_of_prefix_length_le hall (List.prefix_append _ _) hle
    refine List.IsInfix.trans ?_ hprefix.isInfix
    refine List.IsSuffix.isInfix ⟨first.flatMap terminated ++ block, ?_⟩
    simp [terminated]

/-! ## Pieces one after the other -/

/-- Pieces are fed one after the other, and each completes its own blocks. -/
inductive Feeds : Decoder → List (List UInt8) → List (List (List UInt8)) → Decoder → Prop where
  | nil (d : Decoder) : Feeds d [] [] d
  | cons {d d' d'' : Decoder} {chunk : List UInt8} {chunks : List (List UInt8)}
      {blocks : List (List UInt8)} {later : List (List (List UInt8))}
      (first : Completes d chunk blocks d') (others : Feeds d' chunks later d'') :
      Feeds d (chunk :: chunks) (blocks :: later) d''

theorem feeds_pushAll (hreturn : carriageReturn ∉ d.buffer) (hpair : ¬ HasPair d.buffer)
    (chunks : List (List UInt8)) :
    ∃ pieces, Feeds d chunks pieces (d.pushAll chunks).2 ∧
      (d.pushAll chunks).1 = pieces.map (·.filterMap Frame.ofBlock?) := by
  induction chunks generalizing d with
  | nil => exact ⟨[], .nil d, rfl⟩
  | cons chunk chunks ih =>
      obtain ⟨blocks, hfirst, hframes⟩ := completes_push hreturn hpair chunk
      obtain ⟨pieces, hfeeds, hothers⟩ := ih hfirst.noReturn hfirst.cut.rest
      refine ⟨blocks :: pieces, .cons hfirst hfeeds, ?_⟩
      rw [List.map_cons, ← hframes, ← hothers]
      rfl

/-- Nothing is lost between pieces, and nothing is taken twice. -/
theorem Feeds.cut {chunks : List (List UInt8)} {pieces : List (List (List UInt8))}
    (h : Feeds d chunks pieces d') (hpair : ¬ HasPair d.buffer) :
    Cut (d.buffer ++ dropReturns chunks.flatten) pieces.flatten d'.buffer := by
  induction h with
  | nil d =>
      rw [List.flatten_nil, dropReturns, List.filter_nil, List.append_nil]
      exact .nil hpair
  | cons hfirst _ ih =>
      rw [List.flatten_cons, dropReturns_append, ← List.append_assoc, List.flatten_cons]
      exact hfirst.cut.append (ih hfirst.cut.rest)

/-- However a stream of bytes is cut into pieces, its frames are the same and so is what waits in
the buffer.  The pieces are fed one after the other: each completes the blocks whose last line
feed came with it, and gives their frames; after each the buffer has no carriage return and no
two line feeds side by side.  The bytes of the stream but for the carriage returns are those
blocks, each with the pair of line feeds that ends it, and the buffer. -/
theorem frames_come_with_their_last_byte (chunks : List (List UInt8)) :
    (∀ others : List (List UInt8), others.flatten = chunks.flatten →
      (pushAll {} others).1.flatten = (pushAll {} chunks).1.flatten ∧
        (pushAll {} others).2 = (pushAll {} chunks).2) ∧
    ∃ pieces, Feeds {} chunks pieces (pushAll {} chunks).2 ∧
      (pushAll {} chunks).1 = pieces.map (·.filterMap Frame.ofBlock?) ∧
      Cut (dropReturns chunks.flatten) pieces.flatten (pushAll {} chunks).2.buffer := by
  have hempty : takeBlock? ({} : Decoder).buffer = none := rfl
  refine ⟨?_, ?_⟩
  · intro others hsame
    obtain ⟨hframes, hbuffer⟩ := pushAll_eq hempty chunks
    obtain ⟨hframes', hbuffer'⟩ := pushAll_eq hempty others
    rw [hsame] at hframes' hbuffer'
    exact ⟨hframes'.trans hframes.symm,
      congrArg Decoder.mk (hbuffer'.trans hbuffer.symm)⟩
  · obtain ⟨pieces, hfeeds, hframes⟩ :=
      feeds_pushAll (d := {}) List.not_mem_nil not_hasPair_nil chunks
    exact ⟨pieces, hfeeds, hframes, hfeeds.cut not_hasPair_nil⟩

/-- Three line feeds in a row, a carriage return inside the pair that ends a block, a broken
character and an empty piece: byte by byte, and all at once, the frames are the same. -/
theorem bytewise_as_at_once :
    let bytes : List UInt8 :=
      "id:1\nevent:t\ndata:".toUTF8.toList ++ [0xC3, 10, 13, 10, 10, 58] ++
        "keepalive\n\r\nid:".toUTF8.toList
    let bytewise := [] :: bytes.map fun b => [b]
    bytewise.flatten = [bytes].flatten ∧
      (pushAll {} bytewise).1.flatten = [.event 1 "t" "\uFFFD", .keepalive] ∧
      (pushAll {} bytewise).2 = ⟨"id:".toUTF8.toList⟩ := by
  intro bytes bytewise
  have hsame : bytewise.flatten = [bytes].flatten := by
    simp [bytewise, List.flatten_cons, ← List.flatMap_def]
  obtain ⟨hframes, hbuffer⟩ := (frames_come_with_their_last_byte [bytes]).1 bytewise hsame
  exact ⟨hsame, hframes.trans (by decide +kernel), hbuffer.trans (by decide +kernel)⟩

end Decoder

end IssueTracker
