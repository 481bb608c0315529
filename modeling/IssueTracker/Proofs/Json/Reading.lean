/-
  IssueTracker/Proofs/Json/Reading.lean --- as what values are read.

  Read as any value, a written one comes back with the members of its objects in the order of
  their names (`ofText_render`).  Then come lemmas on what the readers of single types make of
  a written value.

  Records are read from any object, written here or not: `gatherMembers_eq_ok_iff` says when its
  members are gathered, and `Readable.lookup` what is found under their names then.  Members that
  stand in the order of the fields, each with a value that its field reads, are one case of it
  (`exists_record`).
-/
import IssueTracker.Json.Text
import IssueTracker.Proofs.Json.Written

set_option autoImplicit false

namespace IssueTracker

namespace Json

variable {depth n : Nat} {j : Json}

/-! ## Whole numbers -/

theorem value?_numeral {n : Int} (hlow : -(Text.maxSigned64 + 1 : Int) ≤ n)
    (hhigh : n ≤ Text.maxWord64) : (numeral n).value? = some (.int n) := by
  have hint : (numeral n).int? = some n := by
    simp only [Numeral.int?, numeral, valueOfDigits_wholeDigits]
    by_cases hneg : n < 0
    · simp only [hneg, decide_true, if_true]
      rw [if_pos (by omega)]
      congr 1
      omega
    · simp only [hneg, decide_false, Bool.false_eq_true, if_false]
      rw [if_pos (by omega)]
      congr 1
      omega
  simp only [Numeral.value?, hint]

/-! ## Any value -/

mutual

/-- The value with the members of its objects in the order of their names. -/
def sorted : Json → Json
  | .null => .null
  | .bool b => .bool b
  | .int n => .int n
  | .real x => .real x
  | .text s => .text s
  | .list js => .list (sortedItems js)
  | .object ms => .object (sortedMembers [] ms)

/-- The items, each sorted. -/
def sortedItems : List Json → List Json
  | [] => []
  | j :: js => sorted j :: sortedItems js

/-- The members, each with its value sorted, put to those before them. -/
def sortedMembers : List (String × Json) → List (String × Json) → List (String × Json)
  | done, [] => done
  | done, (k, j) :: ms => sortedMembers (putMember k (sorted j) done) ms

end

mutual

theorem ofDocWithin?_doc : ∀ (j : Json) {depth : Nat}, fits depth j = true →
    ofDocWithin? depth (doc j) = some (sorted j)
  | .null, depth, _ => by cases depth <;> rfl
  | .bool b, depth, _ => by cases depth <;> rfl
  | .int n, depth, h => by
      have hrange : -(Text.maxSigned64 + 1 : Int) ≤ n ∧ n ≤ Text.maxWord64 := by
        cases depth <;> simpa [fits] using h
      have hvalue := value?_numeral hrange.1 hrange.2
      cases depth <;> simp only [doc, ofDocWithin?, hvalue] <;> rfl
  | .real x, depth, h => by cases depth <;> cases h
  | .text s, depth, _ => by cases depth <;> rfl
  | .list js, 0, h => by cases h
  | .list js, depth + 1, h => by
      rw [doc, ofDocWithin?, if_pos rfl, itemsOfDocs?_itemDocs js h]
      rfl
  | .object ms, 0, h => by cases h
  | .object ms, depth + 1, h => by
      rw [doc, ofDocWithin?, if_pos rfl, membersOfDocs?_memberDocs ms [] h]
      rfl

theorem itemsOfDocs?_itemDocs : ∀ (js : List Json) {depth : Nat}, itemsFit depth js = true →
    itemsOfDocs? depth (itemDocs js) = some (sortedItems js)
  | [], depth, _ => by cases depth <;> rfl
  | j :: js, depth, h => by
      simp only [itemsFit, Bool.and_eq_true] at h
      simp only [itemDocs, itemsOfDocs?, ofDocWithin?_doc j h.1, itemsOfDocs?_itemDocs js h.2]
      rfl

theorem membersOfDocs?_memberDocs : ∀ (ms done : List (String × Json)) {depth : Nat},
    membersFit depth ms = true →
      membersOfDocs? depth done (memberDocs ms) = some (sortedMembers done ms)
  | [], done, depth, _ => by cases depth <;> rfl
  | (k, j) :: ms, done, depth, h => by
      simp only [membersFit, Bool.and_eq_true] at h
      simp only [memberDocs, membersOfDocs?, ofDocWithin?_doc j h.1, Option.bind_eq_bind,
        Option.bind_some, membersOfDocs?_memberDocs ms _ h.2]
      rfl

end

/-- The text of a value is that of a value with the same members. -/
theorem ofText_render (h : fits greatestDepth j = true) : ofText j.render = .ok j.sorted := by
  rw [ofText, readText_render Doc.asValue h, Doc.asValue, ofDoc?, ofDocWithin?_doc j h]

/-! ## Single values -/

namespace Doc

@[simp] theorem asText_doc (s : String) : asText (doc (.text s)) = .ok s := rfl

theorem asNat_doc {limit : Nat} (h : n ≤ limit) (hlimit : limit ≤ Text.maxWord64) :
    asNat limit (doc (.int n)) = .ok n := by
  have hvalue : (numeral (n : Int)).value? = some (.int n) :=
    value?_numeral (by omega) (by omega)
  simp only [doc, asNat, hvalue]
  exact if_pos h

@[simp] theorem asOption_textOrNull (s : Option String) :
    asOption asText (doc (textOrNull s)) = .ok s := by
  cases s <;> rfl

/-- What is not null is read as something. -/
theorem asOption_text {α : Type} (read : Reader α) (s : String) :
    asOption read (doc (.text s)) = (read (doc (.text s))).map some := rfl

theorem asName_doc {α : Type} {table : List (String × α)} {name : String} {a : α}
    (h : table.lookup name = some a) : asName table (doc (.text name)) = .ok a := by
  simp only [doc, asName, h]

theorem asList_doc {α : Type} {read : Reader α} {write : α → Json} {as : List α}
    (h : ∀ a ∈ as, read (doc (write a)) = .ok a) :
    asList read (doc (.list (as.map write))) = .ok as := by
  simp only [doc, asList]
  induction as with
  | nil => rfl
  | cons a as ih =>
      rw [List.forall_mem_cons] at h
      simp only [List.map_cons, itemDocs, readItems, h.1, ih h.2]
      rfl

end Doc

/-! ## Records -/

/-- Does the field have the name of the member and read its value? -/
def Field.Reads (f : Field) (m : String × Json) : Prop := f.name = m.1 ∧ f.fault? (doc m.2) = none

theorem find?_name {fields : List Field} (hdistinct : (fields.map (·.name)).Nodup) {f : Field}
    (hf : f ∈ fields) : fields.find? (·.name == f.name) = some f := by
  induction fields with
  | nil => cases hf
  | cons g fields ih =>
      rw [List.map_cons, List.nodup_cons] at hdistinct
      rcases List.mem_cons.1 hf with rfl | hf
      · rw [List.find?_cons_of_pos (by simp)]
      · have hne : g.name ≠ f.name := by
          intro heq
          exact hdistinct.1 (heq ▸ List.mem_map_of_mem hf)
        rw [List.find?_cons_of_neg (by simpa using hne), ih hdistinct.2 hf]

theorem lookup_cons_of_ne {α κ : Type} [BEq κ] [LawfulBEq κ] {name k : κ} (h : name ≠ k) (a : α)
    (r : List (κ × α)) : ((k, a) :: r).lookup name = r.lookup name := by
  rw [List.lookup_cons, beq_eq_false_iff_ne.2 h]

/-- Under a name that is given once, what has the name is found. -/
theorem lookup_of_mem {α : Type} {r : List (String × α)} {name : String} {a : α}
    (hdistinct : (r.map (·.1)).Nodup) (h : (name, a) ∈ r) : r.lookup name = some a := by
  induction r with
  | nil => cases h
  | cons p r ih =>
      rw [List.map_cons, List.nodup_cons] at hdistinct
      rcases List.mem_cons.1 h with rfl | h
      · rw [List.lookup_cons_self]
      · have hne : name ≠ p.1 := by
          intro heq
          exact hdistinct.1 (List.mem_map.2 ⟨_, h, heq⟩)
        rw [lookup_cons_of_ne hne]
        exact ih hdistinct.2 h

/-- Under a name that is given once, the same is found from either end. -/
theorem lookup_reverse {α : Type} {r : List (String × α)} (hdistinct : (r.map (·.1)).Nodup)
    (name : String) : r.reverse.lookup name = r.lookup name := by
  have hreverse : (r.reverse.map (·.1)).Nodup :=
    ((List.reverse_perm r).map _).nodup_iff.2 hdistinct
  cases hlookup : r.lookup name with
  | none =>
      rw [List.lookup_eq_none_iff] at hlookup ⊢
      exact fun p hp => hlookup p (List.mem_reverse.1 hp)
  | some a =>
      obtain ⟨before, after, rfl, -⟩ := List.lookup_eq_some_iff.1 hlookup
      apply lookup_of_mem hreverse
      simp

/-- The members with the name of a field. -/
def named (fields : List Field) : List (Option String × Doc) → Record
  | [] => []
  | (none, _) :: ms => named fields ms
  | (some k, d) :: ms =>
      match fields.find? (·.name == k) with
      | none => named fields ms
      | some _ => (k, d) :: named fields ms

/-- Does the member read?  Its key has to be a text.  If this is the name of a field, the field has to
read the value, else the value is skipped and only has to be whole. -/
def Legible (fields : List Field) : Option String × Doc → Prop
  | (none, _) => False
  | (some k, d) =>
      match fields.find? (·.name == k) with
      | none => d.isWhole = true
      | some f => f.fault? d = none

/-- Is each of the names there once, and none of them taken? -/
def Fresh (done : Record) (names : List String) : Prop :=
  names.Nodup ∧ ∀ k ∈ names, done.lookup k = none

section Members

variable {fields : List Field} {ms : List (Option String × Doc)} {tail : Tail} {r done : Record}
  {f : Field} {name k : String} {names : List String} {d : Doc}

theorem named_cons (d : Doc) (hfind : fields.find? (·.name == k) = some f) :
    named fields ((some k, d) :: ms) = (k, d) :: named fields ms := by
  rw [named, hfind]

theorem named_cons_of_unknown (d : Doc) (hfind : fields.find? (·.name == k) = none) :
    named fields ((some k, d) :: ms) = named fields ms := by
  rw [named, hfind]

theorem legible_iff (hfind : fields.find? (·.name == k) = some f) :
    Legible fields (some k, d) ↔ f.fault? d = none := by
  rw [Legible, hfind]

theorem legible_iff_of_unknown (hfind : fields.find? (·.name == k) = none) :
    Legible fields (some k, d) ↔ d.isWhole = true := by
  rw [Legible, hfind]

theorem fresh_cons (d : Doc) : Fresh done (k :: names) ↔
    done.lookup k = none ∧ Fresh ((k, d) :: done) names := by
  have hlookup : ∀ k' ∈ names,
      (((k, d) :: done).lookup k' = none ↔ k' ≠ k ∧ done.lookup k' = none) := by
    intro k' _
    by_cases hk : k' = k
    · simp [hk]
    · rw [lookup_cons_of_ne hk, and_iff_right hk]
  rw [Fresh, Fresh, List.nodup_cons, List.forall_mem_cons, forall₂_congr hlookup]
  constructor
  · rintro ⟨⟨hk, hnodup⟩, hnew, hothers⟩
    refine ⟨hnew, hnodup, fun k' hk' => ⟨?_, hothers k' hk'⟩⟩
    rintro rfl
    exact hk hk'
  · rintro ⟨hnew, hnodup, hothers⟩
    exact ⟨⟨fun hk => (hothers k hk).1 rfl, hnodup⟩, hnew, fun k' hk' => (hothers k' hk').2⟩

/-- The member of a field that stands first is the first that has its name. -/
theorem lookup_named (hname : name ∈ fields.map (·.name)) (ms : List (Option String × Doc)) :
    (named fields ms).lookup name = ms.lookup (some name) := by
  obtain ⟨f, hf, rfl⟩ := List.mem_map.1 hname
  obtain ⟨g, hknown⟩ : ∃ g, fields.find? (·.name == f.name) = some g :=
    Option.isSome_iff_exists.1 (List.find?_isSome.2 ⟨f, hf, beq_self_eq_true _⟩)
  induction ms with
  | nil => rfl
  | cons m ms ih =>
      rcases m with ⟨_ | k, d⟩
      · rw [named, ih]
        rfl
      · by_cases hk : f.name = k
        · rw [← hk, named_cons d hknown, List.lookup_cons_self, List.lookup_cons_self]
        · rw [lookup_cons_of_ne (fun heq => hk (Option.some_inj.1 heq)), ← ih]
          cases hfind : fields.find? (·.name == k) with
          | none => rw [named_cons_of_unknown d hfind]
          | some _ => rw [named_cons d hfind, lookup_cons_of_ne hk]

/-- A known member that is the first of its name and reads is gathered. -/
theorem gatherMembers_cons (hfind : fields.find? (·.name == k) = some f)
    (hnew : done.lookup k = none) (hfault : f.fault? d = none) :
    gatherMembers fields done ((some k, d) :: ms) tail =
      gatherMembers fields ((k, d) :: done) ms tail := by
  rw [gatherMembers, hfind]
  simp only [hnew, Option.isSome_none, Bool.false_eq_true, if_false, hfault]

/-- Members are gathered if each of them reads, none stands behind another one or one of those
before them that has its name, and no field is missing in the end. -/
theorem gatherMembers_eq_ok_iff :
    gatherMembers fields done ms tail = .ok r ↔
      tail = .closed ∧ (∀ m ∈ ms, Legible fields m) ∧ Fresh done ((named fields ms).map (·.1)) ∧
        r = (named fields ms).reverse ++ done ∧
        ∀ f ∈ fields, f.optional = true ∨ (r.lookup f.name).isSome = true := by
  induction ms generalizing done with
  | nil =>
      have hall : (fields.all fun f => f.optional || (done.lookup f.name).isSome) = true ↔
          ∀ f ∈ fields, f.optional = true ∨ (done.lookup f.name).isSome = true := by
        simp only [List.all_eq_true, Bool.or_eq_true]
      rw [gatherMembers]
      constructor
      · intro h
        split at h
        · rename_i htail
          split at h
          · rename_i hpresent
            cases h
            exact ⟨htail, by simp, ⟨List.nodup_nil, by simp [named]⟩, rfl, hall.1 hpresent⟩
          · cases h
        · cases h
      · rintro ⟨htail, -, -, rfl, hpresent⟩
        rw [if_pos htail]
        exact if_pos (hall.2 hpresent)
  | cons m ms ih =>
      rcases m with ⟨_ | k, d⟩
      · rw [gatherMembers, List.forall_mem_cons]
        simp [Legible]
      · rw [List.forall_mem_cons]
        cases hfind : fields.find? (·.name == k) with
        | none =>
            rw [gatherMembers, hfind, legible_iff_of_unknown hfind, named_cons_of_unknown d hfind]
            by_cases hwhole : d.isWhole = true
            · simp only [hwhole, if_true, true_and, ih]
            · simp [hwhole]
        | some f =>
            rw [legible_iff hfind, named_cons d hfind, List.map_cons, fresh_cons d]
            by_cases hadded : done.lookup k = none ∧ f.fault? d = none
            · rw [gatherMembers_cons hfind hadded.1 hadded.2, ih, List.reverse_cons,
                List.append_assoc, List.singleton_append]
              simp only [hadded, true_and]
            · have hrefused : gatherMembers fields done ((some k, d) :: ms) tail ≠ .ok r := by
                rw [gatherMembers, hfind]
                cases hnew : done.lookup k with
                | some _ => simp
                | none =>
                    cases hfault : f.fault? d with
                    | some _ => simp [hfault]
                    | none => exact absurd ⟨hnew, hfault⟩ hadded
              refine iff_of_false hrefused ?_
              rintro ⟨-, ⟨hfault, -⟩, ⟨hnew, -⟩, -⟩
              exact hadded ⟨hnew, hfault⟩

/-- Can a record with these fields be read from the members of an object? -/
structure Readable (fields : List Field) (ms : List (Option String × Doc)) (tail : Tail) :
    Prop where
  closed : tail = .closed
  legible : ∀ m ∈ ms, Legible fields m
  /-- No field is given twice. -/
  once : ((named fields ms).map (·.1)).Nodup

/-- Fields that may be missing are read from any readable members. -/
theorem record_object_eq_ok_iff (hoptional : ∀ f ∈ fields, f.optional = true) :
    Doc.record fields (.object ms tail) = .ok r ↔
      Readable fields ms tail ∧ r = (named fields ms).reverse := by
  rw [Doc.record, gatherMembers_eq_ok_iff, List.append_nil]
  constructor
  · rintro ⟨hclosed, hlegible, ⟨honce, -⟩, hr, -⟩
    exact ⟨⟨hclosed, hlegible, honce⟩, hr⟩
  · rintro ⟨⟨hclosed, hlegible, honce⟩, hr⟩
    exact ⟨hclosed, hlegible, ⟨honce, fun _ _ => rfl⟩, hr, fun f hf => Or.inl (hoptional f hf)⟩

/-- What is found in the record under the name of a field is what the object has there. -/
theorem Readable.lookup (h : Readable fields ms tail) (hname : name ∈ fields.map (·.name)) :
    (named fields ms).reverse.lookup name = ms.lookup (some name) := by
  rw [lookup_reverse h.once, lookup_named hname]

end Members

/-- Members that have the names of fields and are read by them are all gathered. -/
theorem named_memberDocs {fields : List Field} {ms : List (String × Json)}
    (hknown : ∀ m ∈ ms, ∃ f, fields.find? (·.name == m.1) = some f) :
    named fields (memberDocs ms) = ms.map fun m => (m.1, doc m.2) := by
  induction ms with
  | nil => rfl
  | cons m ms ih =>
      rw [List.forall_mem_cons] at hknown
      obtain ⟨⟨f, hfind⟩, hothers⟩ := hknown
      rw [memberDocs, named_cons _ hfind, ih hothers, List.map_cons]

theorem memberDocs_eq_map (ms : List (String × Json)) :
    memberDocs ms = ms.map fun m => (some m.1, doc m.2) := by
  induction ms with
  | nil => rfl
  | cons m ms ih => rw [memberDocs, ih, List.map_cons]

/-- Members that stand in the order of the fields are gathered, and each is found under its
name. -/
theorem exists_record {fields : List Field} {ms : List (String × Json)}
    (hdistinct : (fields.map (·.name)).Nodup) (hreads : List.Forall₂ Field.Reads fields ms) :
    ∃ r, Doc.record fields (doc (.object ms)) = .ok r ∧ ∀ m ∈ ms, r.lookup m.1 = some (doc m.2) := by
  have hnames : fields.map (·.name) = ms.map (·.1) := by
    clear hdistinct
    induction hreads with
    | nil => rfl
    | cons hread _ ih => rw [List.map_cons, List.map_cons, hread.1, ih]
  have hfind : ∀ m ∈ ms, ∃ f, fields.find? (·.name == m.1) = some f ∧ f.fault? (doc m.2) = none := by
    intro m hm
    obtain ⟨f, hf, hname, hfault⟩ : ∃ f ∈ fields, Field.Reads f m := by
      clear hdistinct hnames
      induction hreads with
      | nil => cases hm
      | cons hread _ ih =>
          rcases List.mem_cons.1 hm with rfl | hm
          · exact ⟨_, List.mem_cons_self, hread⟩
          · obtain ⟨f, hf, hread⟩ := ih hm
            exact ⟨f, List.mem_cons_of_mem _ hf, hread⟩
    exact ⟨f, hname ▸ find?_name hdistinct hf, hfault⟩
  have hnamed : named fields (memberDocs ms) = ms.map fun m => (m.1, doc m.2) :=
    named_memberDocs fun m hm => (hfind m hm).imp fun _ h => h.1
  have hkeys : ((named fields (memberDocs ms)).map (·.1)).Nodup := by
    rw [hnamed, List.map_map]
    exact hnames ▸ hdistinct
  have hlookup : ∀ m ∈ ms, (named fields (memberDocs ms)).reverse.lookup m.1 = some (doc m.2) := by
    intro m hm
    rw [lookup_reverse hkeys]
    apply lookup_of_mem hkeys
    rw [hnamed]
    exact List.mem_map.2 ⟨m, hm, rfl⟩
  refine ⟨_, gatherMembers_eq_ok_iff.2 ⟨rfl, ?_, ⟨hkeys, fun _ _ => rfl⟩, ?_, ?_⟩, hlookup⟩
  · intro m hm
    rw [memberDocs_eq_map] at hm
    obtain ⟨given, hgiven, rfl⟩ := List.mem_map.1 hm
    obtain ⟨f, hname, hfault⟩ := hfind given hgiven
    exact (legible_iff hname).2 hfault
  · rw [List.append_nil]
  · intro f hf
    have hname : f.name ∈ ms.map (·.1) := hnames ▸ List.mem_map_of_mem hf
    obtain ⟨m, hm, heq⟩ := List.mem_map.1 hname
    rw [← heq, hlookup m hm, Option.isSome_some]
    exact Or.inr rfl

end Json

end IssueTracker
