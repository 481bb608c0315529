/-
  IssueTracker/Proofs/Ledger/Pages.lean --- which records a page has.

  Records are numbered from one without gaps (`Numbered`), so that the search by halving finds
  where the numbers pass a cursor (`searchAfter_spec`).  A page is then the front of all records
  that match (`query_eq`): those behind the cursor whose topic the filter passes.  Whoever has
  read up to some number has the records `between` the cursor at the start and that number; a
  page has those up to its last record (`query_eq_between`), and what was read before goes on with
  them (`between_append_between`).  The ledger only grows behind what was read (`between_eq`).
-/
import IssueTracker.Ledger.Sink
import IssueTracker.Proofs.List.Cut
import Mathlib.Data.List.Nodup

set_option autoImplicit false

namespace IssueTracker

namespace Ledger

variable {l l' : Ledger} {r : Record} {after mid upto : Int} {filter : Topic.Filter}
  {limit : Nat} {records : Array Record}

/-! ## Numbers -/

/-- Records are numbered from one, without gaps. -/
def Numbered (l : Ledger) : Prop :=
  l.records.toList.map (·.id) = List.range' 1 l.records.size

theorem numbered_empty : empty.Numbered := rfl

theorem Numbered.id_eq (h : l.Numbered) {i : Nat} (hi : i < l.records.size) :
    l.records[i].id = i + 1 := by
  have hget := congrArg (fun ns => ns[i]?) h
  rw [List.getElem?_map, Array.getElem?_toList, Array.getElem?_eq_getElem hi,
    List.getElem?_range' hi] at hget
  exact (Option.some.inj hget).trans (by omega)

/-- The number of the latest record is the count of records. -/
theorem Numbered.latest_eq (h : l.Numbered) : l.latest = l.records.size := by
  unfold latest
  rw [Array.back?_eq_getElem?]
  by_cases hempty : l.records.size = 0
  · rw [Array.getElem?_eq_none (by omega), hempty]
    rfl
  · have hlast : l.records.size - 1 < l.records.size := by omega
    rw [Array.getElem?_eq_getElem hlast, Option.elim_some, h.id_eq hlast]
    omega

theorem Numbered.le_latest (h : l.Numbered) (hr : r ∈ l.records.toList) : r.id ≤ l.latest := by
  have hmem : r.id ∈ l.records.toList.map (·.id) := List.mem_map_of_mem hr
  rw [h, List.mem_range'_1] at hmem
  rw [h.latest_eq]
  omega

theorem Numbered.ascending (h : l.Numbered) :
    l.records.toList.Pairwise (·.id < ·.id) := by
  have hnumbers : (l.records.toList.map (·.id)).Pairwise (· < ·) := by
    rw [h]
    exact List.pairwise_lt_range'
  exact List.pairwise_map.1 hnumbers

/-- An entry that is recorded takes the next number and leaves the records before it. -/
theorem records_of_append {now : Instant} {e : Entry} {id : Nat}
    (happend : l.append now e = .ok (id, l')) :
    ∃ r, r.id = l.latest + 1 ∧ l'.records.toList = l.records.toList ++ [r] := by
  unfold append at happend
  split at happend
  · cases happend
  · simp only [Except.ok.injEq, Prod.mk.injEq] at happend
    obtain ⟨-, rfl⟩ := happend
    exact ⟨_, rfl, Array.toList_push⟩

theorem Numbered.concat (h : l.Numbered) (hid : r.id = l.latest + 1)
    (hrecords : l'.records.toList = l.records.toList ++ [r]) : l'.Numbered := by
  unfold Numbered
  rw [← Array.length_toList, hrecords, List.map_append, h, List.length_append,
    List.length_singleton, Array.length_toList, List.range'_concat, List.map_singleton, hid,
    h.latest_eq]
  simp [Nat.add_comm]

/-! ## The search -/

/-- The search finds where the numbers pass the cursor, if they do between `lo` and `hi`. -/
theorem searchAfter_spec (after : Int)
    (hascending : ∀ i j (hi : i < records.size) (hj : j < records.size), i < j →
      records[i].id < records[j].id)
    (lo hi : Nat) (h : hi ≤ records.size) (hle : lo ≤ hi)
    (hbefore : ∀ i (hi : i < records.size), i < lo → (records[i].id : Int) ≤ after)
    (hbehind : ∀ i (hi' : i < records.size), hi ≤ i → after < records[i].id) :
    ∀ i (hi' : i < records.size),
      (i < searchAfter records after lo hi h → (records[i].id : Int) ≤ after) ∧
        (searchAfter records after lo hi h ≤ i → after < records[i].id) := by
  fun_induction searchAfter records after lo hi h with
  | case1 lo hi h hlt hmid hup ih =>
      refine ih (by omega) ?_ hbehind
      intro i hi' hi
      rcases Nat.lt_or_eq_of_le (Nat.le_of_lt_succ hi) with hi | rfl
      · have := hascending i _ hi' hmid hi
        omega
      · exact hup
  | case2 lo hi h hlt hmid hdown ih =>
      refine ih (by omega) hbefore ?_
      intro i hi' hi
      rcases Nat.lt_or_eq_of_le hi with hi | rfl
      · have := hascending _ i hmid hi' hi
        omega
      · omega
  | case3 lo hi h hlt =>
      have hsame : lo = hi := by omega
      subst hsame
      exact fun i hi' => ⟨hbefore i hi', hbehind i hi'⟩

theorem Numbered.drop_firstAfter (h : l.Numbered) (after : Int) :
    l.records.toList.drop (l.firstAfter after) =
      l.records.toList.filter fun r => decide (after < r.id) := by
  have hascending : ∀ i j (hi : i < l.records.size) (hj : j < l.records.size), i < j →
      l.records[i].id < l.records[j].id := by
    intro i j hi hj hlt
    rw [h.id_eq hi, h.id_eq hj]
    omega
  have hspec := searchAfter_spec after hascending 0 l.records.size (Nat.le_refl _)
    (Nat.zero_le _) (fun i _ hi => absurd hi (Nat.not_lt_zero i)) (fun i hi hle => by omega)
  refine (filter_eq_drop ?_ ?_).symm
  · intro r hr
    obtain ⟨i, hi, rfl⟩ := List.mem_take_iff_getElem.1 hr
    have hsize : i < l.records.size := by
      rw [Array.length_toList] at hi
      omega
    have hle := (hspec i hsize).1 (by unfold firstAfter at hi; omega)
    rw [Array.getElem_toList, decide_eq_true_eq]
    omega
  · intro r hr
    obtain ⟨i, hi, rfl⟩ := List.mem_drop_iff_getElem.1 hr
    have hsize : l.firstAfter after + i < l.records.size := by
      rw [Array.length_toList] at hi
      omega
    have hlt := (hspec _ hsize).2 (Nat.le_add_right _ _)
    rw [Array.getElem_toList, decide_eq_true_eq]
    exact hlt

/-! ## Pages -/

/-- The records with a number above a cursor whose topic the filter passes. -/
def matching (after : Int) (filter : Topic.Filter) (l : Ledger) : List Record :=
  l.records.toList.filter fun r => after < r.id && filter.passes r.topic

/-- Those of them with a number up to another cursor. -/
def between (after upto : Int) (filter : Topic.Filter) (l : Ledger) : List Record :=
  (l.matching after filter).filter fun r => decide ((r.id : Int) ≤ upto)

/-- The cursor for the next page: the number of the last record, or the cursor of this page if it
is empty. -/
def nextCursor (after : Int) (page : List Record) : Int :=
  page.getLast?.elim after fun r => (r.id : Int)

/-- A page is the front of all that match. -/
theorem Numbered.query_eq (h : l.Numbered) (after : Int) (filter : Topic.Filter) (limit : Nat) :
    l.query after filter limit = (l.matching after filter).take limit := by
  rw [query, matching, h.drop_firstAfter, List.filter_filter]
  simp only [Bool.and_comm]

theorem mem_matching :
    r ∈ l.matching after filter ↔
      r ∈ l.records.toList ∧ after < r.id ∧ filter.passes r.topic := by
  simp [matching]

theorem mem_between :
    r ∈ l.between after upto filter ↔
      r ∈ l.records.toList ∧ (after < r.id ∧ filter.passes r.topic) ∧ (r.id : Int) ≤ upto := by
  simp [between, mem_matching, and_assoc]

theorem Numbered.matching_ascending (h : l.Numbered) (after : Int) (filter : Topic.Filter) :
    (l.matching after filter).Pairwise (·.id < ·.id) :=
  h.ascending.filter _

/-- An ascending list is cut at a number into those up to it and those above it. -/
theorem filter_le_append_filter_lt {xs : List Record} (h : xs.Pairwise (·.id < ·.id)) (mid : Int) :
    xs.filter (fun r => decide ((r.id : Int) ≤ mid)) ++ xs.filter (fun r => decide (mid < r.id)) =
      xs := by
  induction xs with
  | nil => rfl
  | cons r xs ih =>
      obtain ⟨hr, hxs⟩ := List.pairwise_cons.1 h
      by_cases hle : (r.id : Int) ≤ mid
      · rw [List.filter_cons_of_pos (by simpa using hle),
          List.filter_cons_of_neg (by simpa using hle), List.cons_append, ih hxs]
      · -- All numbers behind the first one above `mid` are above it too.
        have hnone : xs.filter (fun r => decide ((r.id : Int) ≤ mid)) = [] := by
          refine List.filter_eq_nil_iff.2 fun x hx => ?_
          have := hr x hx
          simp only [decide_eq_true_eq]
          omega
        have hall : xs.filter (fun r => decide (mid < r.id)) = xs := by
          have hrest := ih hxs
          rwa [hnone, List.nil_append] at hrest
        rw [List.filter_cons_of_neg (by simpa using hle), hnone, List.nil_append,
          List.filter_cons_of_pos (by simpa using hle), hall]

/-- What is to be read is what was read, and what is left. -/
theorem Numbered.between_append_matching (h : l.Numbered) (hle : after ≤ mid) :
    l.between after mid filter ++ l.matching mid filter = l.matching after filter := by
  have hrest : l.matching mid filter =
      (l.matching after filter).filter fun r => decide (mid < r.id) := by
    unfold matching
    rw [List.filter_filter]
    refine List.filter_congr fun r _ => ?_
    rw [Bool.eq_iff_iff]
    simp only [Bool.and_eq_true, decide_eq_true_eq]
    constructor
    · rintro ⟨hmid, hpass⟩
      exact ⟨hmid, Int.lt_of_le_of_lt hle hmid, hpass⟩
    · rintro ⟨hmid, -, hpass⟩
      exact ⟨hmid, hpass⟩
  rw [hrest]
  exact filter_le_append_filter_lt (h.matching_ascending after filter) mid

/-- Nothing lies between a cursor and itself. -/
theorem between_self (after : Int) (filter : Topic.Filter) : l.between after after filter = [] := by
  refine List.filter_eq_nil_iff.2 fun r hr => ?_
  have hlt := (mem_matching.1 hr).2.1
  rw [decide_eq_true_eq]
  omega

/-- What was read goes on with what is read behind it. -/
theorem Numbered.between_append_between (h : l.Numbered) (hmid : after ≤ mid) (hupto : mid ≤ upto)
    (filter : Topic.Filter) :
    l.between after mid filter ++ l.between mid upto filter = l.between after upto filter := by
  have hall : (l.between after mid filter).filter (fun r => decide ((r.id : Int) ≤ upto)) =
      l.between after mid filter := by
    refine List.filter_eq_self.2 fun r hr => ?_
    have hle := (mem_between.1 hr).2.2
    rw [decide_eq_true_eq]
    omega
  have hmore : l.between mid upto filter =
      (l.matching mid filter).filter fun r => decide ((r.id : Int) ≤ upto) := rfl
  rw [← hall, hmore, ← List.filter_append, h.between_append_matching hmid]
  rfl

/-- What was read is not changed by what is recorded behind the cursor. -/
theorem between_concat (hrecords : l'.records.toList = l.records.toList ++ [r])
    (hbehind : upto < r.id ∨ upto ≤ after) :
    l'.between after upto filter = l.between after upto filter := by
  have hnew : ([r].filter fun r => after < r.id && filter.passes r.topic).filter
      (fun r => decide ((r.id : Int) ≤ upto)) = [] := by
    rw [List.filter_filter, List.filter_eq_nil_iff]
    intro x hx
    rw [List.mem_singleton.1 hx]
    simp only [Bool.and_eq_true, decide_eq_true_eq]
    omega
  rw [between, matching, hrecords, List.filter_append, List.filter_append, hnew, List.append_nil]
  rfl

/-! ## One page -/

/-- The front of an ascending list has what goes up to its last number. -/
theorem filter_le_getLast {xs rest : List Record} (h : (xs ++ rest).Pairwise (·.id < ·.id))
    (hlast : xs.getLast? = some r) :
    (xs ++ rest).filter (fun x => decide ((x.id : Int) ≤ r.id)) = xs := by
  obtain ⟨front, rfl⟩ := List.getLast?_eq_some_iff.1 hlast
  obtain ⟨hxs, -, hrest⟩ := List.pairwise_append.1 h
  obtain ⟨-, -, hfront⟩ := List.pairwise_append.1 hxs
  rw [List.filter_append, List.filter_eq_self.2, List.filter_eq_nil_iff.2, List.append_nil]
  · intro x hx
    have := hrest r (by simp) x hx
    rw [decide_eq_true_eq]
    omega
  · intro x hx
    rw [decide_eq_true_eq]
    rcases List.mem_append.1 hx with hx | hx
    · have := hfront x hx r List.mem_cons_self
      omega
    · obtain rfl := List.mem_singleton.1 hx
      exact Int.le_refl _

theorem nextCursor_nil (after : Int) : nextCursor after [] = after := rfl

theorem nextCursor_append (after : Int) (page more : List Record) :
    nextCursor after (page ++ more) = nextCursor (nextCursor after page) more := by
  unfold nextCursor
  rw [List.getLast?_append]
  cases more.getLast? <;> rfl

/-- The cursor behind a page that is not empty is the number of a record of the page. -/
theorem exists_nextCursor {page : List Record} (h : page ≠ []) (after : Int) :
    ∃ r ∈ page, page.getLast? = some r ∧ nextCursor after page = r.id := by
  refine ⟨page.getLast h, List.getLast_mem h, List.getLast?_eq_some_getLast h, ?_⟩
  rw [nextCursor, List.getLast?_eq_some_getLast h]
  rfl

/-- A page with room for a record is empty only if there is none to show. -/
theorem Numbered.query_eq_nil_iff (h : l.Numbered) (hlimit : 0 < limit) :
    l.query after filter limit = [] ↔ l.matching after filter = [] := by
  rw [h.query_eq, List.take_eq_nil_iff]
  exact ⟨fun hnil => hnil.resolve_left (by omega), Or.inr⟩

/-- A page that is not empty goes past its cursor. -/
theorem Numbered.lt_nextCursor (h : l.Numbered) (hpage : l.query after filter limit ≠ []) :
    after < nextCursor after (l.query after filter limit) ∧
      nextCursor after (l.query after filter limit) ≤ l.latest := by
  obtain ⟨r, hr, -, hcursor⟩ := exists_nextCursor hpage after
  rw [h.query_eq] at hr
  obtain ⟨hrecord, hlt, -⟩ := mem_matching.1 (List.mem_of_mem_take hr)
  have hle := h.le_latest hrecord
  rw [hcursor]
  omega

theorem Numbered.le_nextCursor (h : l.Numbered) (after : Int) (filter : Topic.Filter)
    (limit : Nat) : after ≤ nextCursor after (l.query after filter limit) := by
  by_cases hpage : l.query after filter limit = []
  · have hsame : nextCursor after (l.query after filter limit) = after := by
      rw [hpage, nextCursor_nil]
    exact Int.le_of_eq hsame.symm
  · exact Int.le_of_lt (h.lt_nextCursor hpage).1

/-- A page has all that matches up to the cursor behind it. -/
theorem Numbered.query_eq_between (h : l.Numbered) (after : Int) (filter : Topic.Filter)
    (limit : Nat) :
    l.query after filter limit =
      l.between after (nextCursor after (l.query after filter limit)) filter := by
  by_cases hpage : l.query after filter limit = []
  · rw [hpage, nextCursor_nil, between_self]
  · obtain ⟨r, -, hlast, hcursor⟩ := exists_nextCursor hpage after
    have hascending := h.matching_ascending after filter
    rw [h.query_eq] at hlast
    rw [hcursor, between]
    rw [← List.take_append_drop limit (l.matching after filter)] at hascending ⊢
    rw [filter_le_getLast hascending hlast, h.query_eq]

/-! ## Growth -/

/-- The second ledger has at most one record more, with the next number. -/
def Grows (l l' : Ledger) : Prop :=
  l' = l ∨ ∃ r : Record, r.id = l.latest + 1 ∧ l'.records.toList = l.records.toList ++ [r]

theorem Numbered.grows (h : l.Numbered) (hgrows : l.Grows l') : l'.Numbered := by
  rcases hgrows with rfl | ⟨r, hid, hrecords⟩
  · exact h
  · exact h.concat hid hrecords

theorem Numbered.latest_le_of_grows (h : l.Numbered) (hgrows : l.Grows l') :
    l.latest ≤ l'.latest := by
  rcases hgrows with rfl | ⟨r, hid, hrecords⟩
  · exact Nat.le_refl _
  · have hsize := congrArg List.length hrecords
    rw [List.length_append, Array.length_toList, Array.length_toList] at hsize
    rw [h.latest_eq, (h.concat hid hrecords).latest_eq]
    omega

/-- What was read up to a number that the ledger had, or has to come to, stays what it is. -/
theorem Grows.between_eq (hgrows : l.Grows l') (hupto : upto ≤ after ∨ upto ≤ l.latest)
    (filter : Topic.Filter) : l'.between after upto filter = l.between after upto filter := by
  rcases hgrows with rfl | ⟨r, hid, hrecords⟩
  · rfl
  · apply between_concat hrecords
    omega

end Ledger

namespace LedgerSink

variable {state : LedgerSink}

theorem offer_grows (haccepting : state.availability = .accepting) (now : Instant)
    (e : Ledger.Entry) :
    (state.offer now e).2.availability = .accepting ∧
      state.ledger.Grows (state.offer now e).2.ledger := by
  simp only [offer, haccepting]
  split
  · next id ledger happend =>
      exact ⟨rfl, Or.inr (Ledger.records_of_append happend)⟩
  · exact ⟨haccepting, Or.inl rfl⟩

/-- A ledger that was offered entries, each at its time. -/
def offered : List (Instant × Ledger.Entry) → LedgerSink → LedgerSink
  | [], state => state
  | (now, e) :: rest, state => offered rest (state.offer now e).2

theorem offered_numbered (entries : List (Instant × Ledger.Entry))
    (haccepting : state.availability = .accepting) (hnumbered : state.ledger.Numbered) :
    (offered entries state).availability = .accepting ∧
      (offered entries state).ledger.Numbered := by
  induction entries generalizing state with
  | nil => exact ⟨haccepting, hnumbered⟩
  | cons first rest ih =>
      obtain ⟨hafter, hgrows⟩ := offer_grows haccepting first.1 first.2
      exact ih hafter (hnumbered.grows hgrows)

end LedgerSink

end IssueTracker
