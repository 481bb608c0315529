/-
  IssueTracker/Proofs/Topic/FilterText.lean --- the text of a filter and its patterns.

  A comma ends a pattern wherever it stands, so that the text of a filter can be cut at any of its
  commas and the parts read for themselves (`patterns_append`).  The `Plain` texts are those that
  come back as one pattern when they are read alone (`patterns_of_plain`), and whatever is read is
  plain; so patterns with commas between them are read back one for one.  Only a text that holds
  nothing but commas and blanks gives the filter that passes everything.
-/
import IssueTracker.Proofs.Text.Trim
import IssueTracker.Topic.Filter
import Mathlib.Data.Bool.AllAny

set_option autoImplicit false

namespace IssueTracker

namespace Topic

namespace Filter

variable {a b p : String} {cs : List Char} {ps : List String}

/-! ## Pieces between commas -/

/-- The pattern of a piece, if one is there. -/
def ofPiece (piece : List Char) : Option String :=
  if (Text.trim piece).isEmpty then none else some (String.ofList (Text.trim piece))

theorem patterns_parse (a : String) :
    (parse a).patterns = (Text.split ',' a.toList).filterMap ofPiece := by
  rw [parse, List.filterMap_map]
  rfl

theorem ofPiece_of_blank (h : Text.trim cs = []) : ofPiece cs = none := by
  rw [ofPiece, h]
  rfl

theorem ofPiece_of_ne_nil (h : Text.trim cs ≠ []) :
    ofPiece cs = some (String.ofList (Text.trim cs)) := by
  rw [ofPiece, if_neg (by simpa using h)]

theorem ofPiece_eq_none_iff : ofPiece cs = none ↔ ∀ c ∈ cs, Text.isBlank c = true := by
  rw [← Text.trim_eq_nil_iff]
  by_cases h : Text.trim cs = []
  · exact iff_of_true (ofPiece_of_blank h) h
  · refine iff_of_false ?_ h
    rw [ofPiece_of_ne_nil h]
    exact nofun

/-! ## Patterns -/

/-- A text that can stand between the commas of a filter as it is. -/
structure Plain (p : String) : Prop where
  ne : p ≠ ""
  comma : ',' ∉ p.toList
  first : ∀ c ∈ p.toList.head?, Text.isBlank c = false
  last : ∀ c ∈ p.toList.getLast?, Text.isBlank c = false

theorem plain_iff :
    Plain p ↔ (p ≠ "" ∧ ',' ∉ p.toList) ∧ (∀ c ∈ p.toList.head?, Text.isBlank c = false) ∧
      ∀ c ∈ p.toList.getLast?, Text.isBlank c = false :=
  ⟨fun h => ⟨⟨h.ne, h.comma⟩, h.first, h.last⟩, fun h => ⟨h.1.1, h.1.2, h.2.1, h.2.2⟩⟩

instance (p : String) : Decidable (Plain p) :=
  have (o : Option Char) : Decidable (∀ c ∈ o, Text.isBlank c = false) := o.decidableForallMem
  decidable_of_iff' _ plain_iff

/-- What is read from a piece is plain: the commas are outside, and the blanks are trimmed. -/
theorem plain_of_mem (h : p ∈ (parse a).patterns) : Plain p := by
  rw [patterns_parse, List.mem_filterMap] at h
  obtain ⟨piece, hpiece, hp⟩ := h
  have hne : Text.trim piece ≠ [] := by
    intro hblank
    rw [ofPiece_of_blank hblank] at hp
    cases hp
  rw [ofPiece_of_ne_nil hne, Option.some.injEq] at hp
  have hchars : p.toList = Text.trim piece := by rw [← hp, String.toList_ofList]
  have hends := Text.trim_eq_self_iff.1 (Text.trim_trim piece)
  rw [← hchars] at hends hne
  refine ⟨mt String.toList_eq_nil_iff.2 hne, ?_, hends.1, hends.2⟩
  rw [hchars]
  exact fun hcomma => Text.not_mem_of_mem_split hpiece ((Text.trim_sublist piece).subset hcomma)

/-- A plain text is a filter of one pattern. -/
theorem patterns_of_plain (h : Plain p) : (parse p).patterns = [p] := by
  have htrim : Text.trim p.toList = p.toList := Text.trim_eq_self_iff.2 ⟨h.first, h.last⟩
  have hne : Text.trim p.toList ≠ [] := by
    rw [htrim]
    exact mt String.toList_eq_nil_iff.1 h.ne
  rw [patterns_parse, Text.split_of_not_mem h.comma,
    List.filterMap_cons_some (ofPiece_of_ne_nil hne), htrim, String.ofList_toList]
  rfl

/-- A comma between two texts separates their patterns. -/
theorem patterns_append (a b : String) :
    (parse (a ++ "," ++ b)).patterns = (parse a).patterns ++ (parse b).patterns := by
  have hchars : (a ++ "," ++ b).toList = a.toList ++ ',' :: b.toList := by simp
  rw [patterns_parse, hchars, Text.split_append_cons, List.filterMap_append, patterns_parse,
    patterns_parse]

/-- Plain patterns are read back from their text. -/
theorem patterns_intercalate (h : ∀ p ∈ ps, Plain p) :
    (parse (",".intercalate ps)).patterns = ps := by
  induction ps with
  | nil => rfl
  | cons p ps ih =>
      have hp := patterns_of_plain (h p List.mem_cons_self)
      cases ps with
      | nil => rwa [String.intercalate_singleton]
      | cons q ps =>
          rw [String.intercalate_cons_cons, patterns_append, hp,
            ih fun r hr => h r (List.mem_cons_of_mem _ hr)]
          rfl

/-! ## The filter without patterns -/

theorem eq_everything_iff {f : Filter} : f = everything ↔ f.patterns = [] := by
  cases f
  simp [everything]

theorem passes_of_patterns {f : Filter} (h : f.patterns ≠ []) (topic : String) :
    f.passes topic = f.patterns.any fun p => satisfies p topic := by
  have hsome : f.patterns.isEmpty = false := by simpa using h
  rw [passes, hsome, Bool.false_or]

/-- Without a pattern there is nothing but commas and blanks. -/
theorem parse_eq_everything_iff :
    parse a = everything ↔ ∀ c ∈ a.toList, c = ',' ∨ Text.isBlank c = true := by
  rw [eq_everything_iff, patterns_parse, List.filterMap_eq_nil_iff]
  simp only [ofPiece_eq_none_iff]
  constructor
  · intro hblank c hc
    rw [← Text.joinWith_split ',' a.toList] at hc
    rcases Text.mem_joinWith hc with hcomma | ⟨piece, hpiece, hc⟩
    · exact Or.inl hcomma
    · exact Or.inr (hblank piece hpiece c hc)
  · intro hblank piece hpiece c hc
    refine (hblank c (Text.mem_of_mem_split hpiece hc)).resolve_left ?_
    rintro rfl
    exact Text.not_mem_of_mem_split hpiece hc

/-- Two filters of which each has a pattern pass together what one of them passes. -/
theorem passes_append (ha : parse a ≠ everything) (hb : parse b ≠ everything) (topic : String) :
    (parse (a ++ "," ++ b)).passes topic = ((parse a).passes topic || (parse b).passes topic) := by
  have ha' := mt eq_everything_iff.2 ha
  have hb' := mt eq_everything_iff.2 hb
  have hboth : (parse (a ++ "," ++ b)).patterns ≠ [] := by
    rw [patterns_append]
    exact List.append_ne_nil_of_left_ne_nil ha' _
  rw [passes_of_patterns hboth, passes_of_patterns ha', passes_of_patterns hb', patterns_append,
    List.any_append]

/-- Texts of filters can be put together and taken apart at commas.  With a comma between them two
texts have the patterns of the one and then those of the other.  Every pattern that is read is
plain, and plain patterns with commas between them are read back as they were, so that a filter is
not changed by writing it down and reading it.  Only commas and blanks pass everything.  Together
two filters pass what one of them passes if both have patterns, and otherwise what the one that
has patterns passes. -/
theorem filters_split_at_commas (a b : String) :
    (parse (a ++ "," ++ b)).patterns = (parse a).patterns ++ (parse b).patterns ∧
      (∀ p ∈ (parse a).patterns, Plain p) ∧
      (∀ ps : List String, (∀ p ∈ ps, Plain p) → (parse (",".intercalate ps)).patterns = ps) ∧
      parse (",".intercalate (parse a).patterns) = parse a ∧
      (parse a = everything ↔ ∀ c ∈ a.toList, c = ',' ∨ Text.isBlank c = true) ∧
      ∀ topic : String,
        (parse a ≠ everything → parse b ≠ everything →
          (parse (a ++ "," ++ b)).passes topic =
            ((parse a).passes topic || (parse b).passes topic)) ∧
        (parse b = everything → (parse (a ++ "," ++ b)).passes topic = (parse a).passes topic) ∧
        (parse a = everything → (parse (a ++ "," ++ b)).passes topic = (parse b).passes topic) := by
  have hsame : ∀ {f g : Filter}, f.patterns = g.patterns → f = g := by
    rintro ⟨_⟩ ⟨_⟩ rfl
    rfl
  refine ⟨patterns_append a b, fun p hp => plain_of_mem hp, fun ps hps => patterns_intercalate hps,
    hsame (patterns_intercalate fun p hp => plain_of_mem hp), parse_eq_everything_iff,
    fun topic => ⟨fun ha hb => passes_append ha hb topic, ?_, ?_⟩⟩
  · intro hb
    have hpatterns := patterns_append a b
    rw [eq_everything_iff.1 hb, List.append_nil] at hpatterns
    rw [hsame hpatterns]
  · intro ha
    have hpatterns := patterns_append a b
    rw [eq_everything_iff.1 ha, List.nil_append] at hpatterns
    rw [hsame hpatterns]

/-- Blanks of other scripts are blanks at the ends of a pattern and not inside it. -/
theorem blank_part_adds_nothing :
    (∀ p ∈ ["a.*", "b c"], Plain p) ∧
      (parse (",".intercalate ["a.*", "b c"])).patterns = ["a.*", "b c"] ∧
      (parse "\u3000a.* ,," ≠ everything ∧ parse "b" ≠ everything ∧
        (parse ("\u3000a.* ,," ++ "," ++ "b")).passes "b" = true) ∧
      parse " ,\u00a0" = everything ∧ (parse (" ,\u00a0" ++ "," ++ "b")).passes "a.b" = false := by
  obtain ⟨-, -, hlist, -, -, -⟩ := filters_split_at_commas "" ""
  obtain ⟨-, -, -, -, -, hpasses⟩ := filters_split_at_commas "\u3000a.* ,," "b"
  obtain ⟨-, -, -, -, hblank, hrest⟩ := filters_split_at_commas " ,\u00a0" "b"
  have hplain : ∀ p ∈ ["a.*", "b c"], Plain p := by decide
  have hfirst : parse "\u3000a.* ,," ≠ everything := by decide
  have hsecond : parse "b" ≠ everything := by decide
  have hnone : parse " ,\u00a0" = everything := 
    hblank.2 (List.all_iff_forall_prop.1 (by decide))
  refine ⟨hplain, hlist _ hplain, ⟨hfirst, hsecond, ?_⟩, hnone, ?_⟩
  · rw [(hpasses "b").1 hfirst hsecond]
    decide
  · rw [(hrest "a.b").2.2 hnone]
    decide

end Filter

end Topic

end IssueTracker
