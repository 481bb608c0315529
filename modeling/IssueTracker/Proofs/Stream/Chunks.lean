/-
  IssueTracker/Proofs/Stream/Chunks.lean --- how the bytes come in does not matter.

  A block that is complete stays the first block, whatever comes behind it, so that the blocks
  of two pieces are those of the pieces joined (`takeBlocks_append`).  `pushAll_eq` follows: a
  decoder that is fed in pieces gives the frames of all the bytes together.
-/
import IssueTracker.Stream.Decoder

set_option autoImplicit false

namespace IssueTracker

namespace Decoder

variable {b c : UInt8} {bs block rest more : List UInt8}

/-! ## The first block -/

/-- Where no pair of line feeds starts, the block goes on. -/
theorem takeBlock?_cons (hpair : ¬ (b = lineFeed ∧ bs.head? = some lineFeed)) :
    takeBlock? (b :: bs) = (takeBlock? bs).map fun found => (b :: found.1, found.2) := by
  cases bs with
  | nil => rfl
  | cons c bs =>
      have hno : ¬ (b = lineFeed ∧ c = lineFeed) := by simpa using hpair
      rw [takeBlock?, if_neg hno]
      cases takeBlock? (c :: bs) <;> rfl

theorem takeBlock?_pair (bs : List UInt8) :
    takeBlock? (lineFeed :: lineFeed :: bs) = some ([], bs) :=
  if_pos ⟨rfl, rfl⟩

/-- The bytes of a line belong to the block. -/
theorem takeBlock?_append_line {line : List UInt8} (hline : lineFeed ∉ line) (bs : List UInt8) :
    takeBlock? (line ++ bs) = (takeBlock? bs).map fun found => (line ++ found.1, found.2) := by
  induction line with
  | nil =>
      rw [List.nil_append]
      cases takeBlock? bs <;> rfl
  | cons b line ih =>
      rw [List.mem_cons, not_or] at hline
      have hpair : ¬ (b = lineFeed ∧ (line ++ bs).head? = some lineFeed) :=
        fun hpair => hline.1 hpair.1.symm
      rw [List.cons_append, takeBlock?_cons hpair, ih hline.2, Option.map_map]
      rfl

/-- Lines that are not empty make a block, up to the empty line that comes behind them. -/
theorem takeBlock?_lines {lines : List (List UInt8)} (hne : lines ≠ [])
    (hlines : ∀ line ∈ lines, line ≠ [] ∧ lineFeed ∉ line) (rest : List UInt8) :
    takeBlock? (lines.flatMap (· ++ [lineFeed]) ++ lineFeed :: rest) =
      some (Text.joinWith lineFeed lines, rest) := by
  induction lines with
  | nil => exact absurd rfl hne
  | cons line lines ih =>
      have hline := hlines line List.mem_cons_self
      rw [List.flatMap_cons, List.append_assoc, List.append_assoc,
        takeBlock?_append_line hline.2]
      cases lines with
      | nil =>
          rw [List.flatMap_nil, List.nil_append, List.singleton_append, takeBlock?_pair]
          simp [Text.joinWith]
      | cons next lines =>
          have hnext := hlines next (by simp)
          have hpair : ¬ (lineFeed = lineFeed ∧ ((next :: lines).flatMap (· ++ [lineFeed]) ++
              lineFeed :: rest).head? = some lineFeed) := by
            obtain ⟨b, bs, rfl⟩ := List.exists_cons_of_ne_nil hnext.1
            have hb : b ≠ lineFeed := fun heq => hnext.2 (by simp [heq])
            simpa using hb
          rw [List.singleton_append, takeBlock?_cons hpair,
            ih (by simp) fun l hl => hlines l (List.mem_cons_of_mem _ hl)]
          rfl

/-- What comes behind a complete block does not change it. -/
theorem takeBlock?_append (hblock : takeBlock? bs = some (block, rest)) (more : List UInt8) :
    takeBlock? (bs ++ more) = some (block, rest ++ more) := by
  induction bs generalizing block with
  | nil => simp [takeBlock?] at hblock
  | cons b bs ih =>
      by_cases hpair : b = lineFeed ∧ bs.head? = some lineFeed
      · obtain ⟨rfl, hhead⟩ := hpair
        obtain ⟨bs, rfl⟩ := List.head?_eq_some_iff.1 hhead
        rw [takeBlock?_pair, Option.some.injEq, Prod.mk.injEq] at hblock
        obtain ⟨rfl, rfl⟩ := hblock
        exact takeBlock?_pair _
      · rw [takeBlock?_cons hpair, Option.map_eq_some_iff] at hblock
        obtain ⟨⟨before, behind⟩, hfound, heq⟩ := hblock
        rw [Prod.mk.injEq] at heq
        obtain ⟨rfl, rfl⟩ := heq
        have hpair' : ¬ (b = lineFeed ∧ (bs ++ more).head? = some lineFeed) := by
          cases bs with
          | nil => simp [takeBlock?] at hfound
          | cons c bs => exact hpair
        rw [List.cons_append, takeBlock?_cons hpair', ih hfound]
        rfl

/-! ## All blocks -/

theorem takeBlocks_of_none (hnone : takeBlock? bs = none) : takeBlocks bs = ([], bs) := by
  rw [takeBlocks]
  split
  · rfl
  · rename_i hsome
    rw [hnone] at hsome
    exact absurd hsome (by simp)

theorem takeBlocks_of_some (hsome : takeBlock? bs = some (block, rest)) :
    takeBlocks bs = (block :: (takeBlocks rest).1, (takeBlocks rest).2) := by
  rw [takeBlocks]
  split
  · rename_i hnone
    rw [hsome] at hnone
    exact absurd hnone (by simp)
  · rename_i block' rest' hsome'
    rw [hsome, Option.some.injEq, Prod.mk.injEq] at hsome'
    obtain ⟨rfl, rfl⟩ := hsome'
    rfl

/-- The blocks of two pieces together are those of the first, and then those of what the first
leaves with the second behind it. -/
theorem takeBlocks_append (bs more : List UInt8) :
    takeBlocks (bs ++ more) =
      ((takeBlocks bs).1 ++ (takeBlocks ((takeBlocks bs).2 ++ more)).1,
        (takeBlocks ((takeBlocks bs).2 ++ more)).2) := by
  induction hlength : bs.length using Nat.strongRecOn generalizing bs with
  | _ n ih =>
      cases hfirst : takeBlock? bs with
      | none => rw [takeBlocks_of_none hfirst, List.nil_append]
      | some found =>
          obtain ⟨block, rest⟩ := found
          have hshorter := length_of_takeBlock? hfirst
          rw [takeBlocks_of_some (takeBlock?_append hfirst more), takeBlocks_of_some hfirst,
            ih rest.length (hlength ▸ hshorter) rest rfl, List.cons_append]

/-- Nothing complete is left. -/
theorem takeBlock?_of_takeBlocks (bs : List UInt8) : takeBlock? (takeBlocks bs).2 = none := by
  induction hlength : bs.length using Nat.strongRecOn generalizing bs with
  | _ n ih =>
      cases hfirst : takeBlock? bs with
      | none =>
          rw [takeBlocks_of_none hfirst]
          exact hfirst
      | some found =>
          obtain ⟨block, rest⟩ := found
          have hshorter := length_of_takeBlock? hfirst
          rw [takeBlocks_of_some hfirst]
          exact ih rest.length (hlength ▸ hshorter) rest rfl

/-! ## The decoder -/

theorem dropReturns_append (bs more : List UInt8) :
    dropReturns (bs ++ more) = dropReturns bs ++ dropReturns more :=
  List.filter_append _ _

/-- A decoder that holds no complete block and is fed in pieces gives the frames of all the bytes
together, and keeps what they leave. -/
theorem pushAll_eq {d : Decoder} (hd : takeBlock? d.buffer = none) (chunks : List (List UInt8)) :
    let blocks := takeBlocks (d.buffer ++ dropReturns chunks.flatten)
    (d.pushAll chunks).1.flatten = blocks.1.filterMap Frame.ofBlock? ∧
      (d.pushAll chunks).2.buffer = blocks.2 := by
  induction chunks generalizing d with
  | nil =>
      simp only [List.flatten_nil, dropReturns, List.filter_nil, List.append_nil,
        takeBlocks_of_none hd]
      exact ⟨rfl, rfl⟩
  | cons chunk chunks ih =>
      have hnext : takeBlock? (d.push chunk).2.buffer = none :=
        takeBlock?_of_takeBlocks (d.buffer ++ dropReturns chunk)
      obtain ⟨hframes, hbuffer⟩ := ih hnext
      have hsplit := takeBlocks_append (d.buffer ++ dropReturns chunk) (dropReturns chunks.flatten)
      simp only [List.flatten_cons, dropReturns_append, ← List.append_assoc]
      rw [hsplit]
      refine ⟨?_, hbuffer⟩
      simp only [List.filterMap_append]
      exact congrArg ((d.push chunk).1 ++ ·) hframes

end Decoder

end IssueTracker
