/-
  LinkedData.Proofs.TripleLines — a line of triples says which triple it is.

  A triple is printable when its IRIs are such as `Iri.parse` accepts and its literals were made in one
  of the three ways; the lexical forms may hold anything. What is written of a term can be cut off the
  front of a text in one way only, as long as a space follows: an IRI ends at its closing bracket, a
  blank node's label and a language tag end at the space, and the body of a literal ends at the first
  quote that is not escaped (`escape_cut`). So no other printable triple has the same line
  (`line_injective`), and the line has no line break in it (`line_unbroken`). The block of lines that a
  listing gives to a graph then tells which graph it is (`lines_determine`).
-/

import LinkedData.Listing
import LinkedData.Proofs.Numerals
import Mathlib.Data.List.Basic

namespace LinkedData

open Std Vocabulary

/-! ## What may be printed -/

/-- Made in one of the three ways, with a tag or a datatype that may stand on a line. -/
inductive Literal.Made : Literal → Prop
  | simple (lexical : String) : Made (.simple lexical)
  | lang (lexical : String) {tag : String} (h : ∀ c ∈ tag.toList, Text.isBlank c = false) : Made (.lang lexical tag)
  | typed (lexical : String) {datatype : Iri} (h : datatype.WellFormed) : Made (.typed lexical datatype)

def Term.Printable : Term → Prop
  | .iri i => i.WellFormed
  | .blank _ => True
  | .literal l => l.Made

structure Triple.Printable (t : Triple) : Prop where
  subject : t.subject.toTerm.Printable
  predicate : t.predicate.WellFormed
  object : t.object.Printable

theorem Subject.toTerm_injective : Function.Injective Subject.toTerm := by
  intro s s' h
  cases s <;> cases s' <;> cases h <;> rfl

/-- A colon, a scheme before the first one, and no illegal character. -/
theorem Iri.wellFormed_iff {i : Iri} : i.WellFormed ↔
    ':' ∈ i.text.toList ∧ validScheme (i.text.toList.takeWhile (· ≠ ':')) = true ∧
      ∀ c ∈ i.text.toList, illegalChar c = false := by
  unfold WellFormed fault?
  split
  · next h => simpa using fun hc => absurd hc (by simpa using h)
  · split
    · next h => simpa using fun _ hs => absurd hs (by simpa using h)
    · next hc hs =>
      rw [not_not] at hc hs
      simp_all

theorem Iri.WellFormed.not_mem {i : Iri} (h : i.WellFormed) {c : Char} (hc : illegalChar c = true) :
    c ∉ i.text.toList := by
  intro hm
  rw [(wellFormed_iff.mp h).2.2 c hm] at hc
  cases hc

/-- What a literal has beside its lexical form: a tag in lower case, or a datatype alone. -/
theorem Literal.Made.cases {l : Literal} (h : l.Made) :
    (∃ tag : String, l.language = some tag ∧ l.datatype = Rdf.langString ∧
      ∀ c ∈ tag.toList, Text.isBlank c = false) ∨
      l.language = none ∧ l.datatype.WellFormed := by
  cases h with
  | simple lexical => exact .inr ⟨rfl, show Xsd.string.WellFormed by decide⟩
  | @lang lexical tag h =>
    refine .inl ⟨_, rfl, rfl, fun c hc => ?_⟩
    rw [String.toList_ofList, List.mem_map] at hc
    obtain ⟨d, hd, rfl⟩ := hc
    rw [isBlank_toLower, h d hd]
  | typed lexical h => exact .inr ⟨rfl, h⟩
where
  isBlank_toLower (c : Char) : Text.isBlank c.toLower = Text.isBlank c := by
    by_cases hc : c.toNat < 128
    · have hascii : ∀ k : Fin 128, Text.isBlank (Char.ofNat k).toLower = Text.isBlank (Char.ofNat k) := by decide
      have hall := hascii ⟨c.toNat, hc⟩
      rwa [Char.ofNat_toNat] at hall
    · unfold Char.toLower
      split
      · next h => exact absurd (Nat.lt_of_le_of_lt (UInt32.le_iff_toNat_le.mp h.2) (by decide)) hc
      · rfl

namespace NTriples

/-! ## Cutting a term off

  Each part of a line shows where it ends: two texts that begin with such a part are equal only if the
  parts are, and what follows them. -/

/-- A text shows where its first `c` is. -/
theorem cut_at {c : Char} {cs ds r s : List Char} (hc : c ∉ cs) (hd : c ∉ ds) (h : cs ++ c :: r = ds ++ c :: s) :
    cs = ds ∧ r = s := by
  rcases List.append_eq_append_iff.mp h with ⟨l, rfl, hl⟩ | ⟨l, rfl, hl⟩ <;> cases l <;> simp_all

theorem iri_cut {i j : Iri} (hi : i.WellFormed) (hj : j.WellFormed) {r s : List Char} (h : iri i ++ r = iri j ++ s) :
    i = j ∧ r = s := by
  simp only [iri, List.cons_append, List.append_assoc, List.nil_append, List.cons.injEq, true_and] at h
  obtain ⟨htext, hrest⟩ := cut_at (hi.not_mem (by decide)) (hj.not_mem (by decide)) h
  exact ⟨by cases i; cases j; exact congrArg Iri.mk (String.toList_inj.mp htext), hrest⟩

theorem isDigit_of_mem_toDigits {n : Nat} {c : Char} (h : c ∈ Nat.toDigits 10 n) : c.isDigit = true :=
  Nat.isDigit_of_mem_toDigits (by decide) (by decide) h

/-- A number ends at whatever is no digit. -/
theorem toDigits_cut {m n : Nat} {c : Char} (hc : c.isDigit = false) {r s : List Char}
    (h : Nat.toDigits 10 m ++ c :: r = Nat.toDigits 10 n ++ c :: s) : m = n ∧ r = s := by
  have hno : ∀ k, c ∉ Nat.toDigits 10 k := by
    intro k hm
    rw [isDigit_of_mem_toDigits hm] at hc
    cases hc
  obtain ⟨hdigits, hrest⟩ := cut_at (hno m) (hno n) h
  have hvalue := congrArg (Nat.ofDigitChars 10 · 0) hdigits
  simp only [Nat.ofDigitChars_toDigits (b := 10) (by decide) (by decide)] at hvalue
  exact ⟨hvalue, hrest⟩

theorem blank_cut {a b : BlankNode} {r s : List Char} (h : blank a ++ ' ' :: r = blank b ++ ' ' :: s) :
    a = b ∧ r = s := by
  simp only [blank, List.cons_append, List.append_assoc, List.cons.injEq, true_and] at h
  obtain ⟨hscope, h⟩ := toDigits_cut (by decide) h
  obtain ⟨hindex, hrest⟩ := toDigits_cut (by decide) h
  cases a
  cases b
  rw [UInt64.toNat_inj] at hscope
  rw [UInt32.toNat_inj] at hindex
  exact ⟨by congr, hrest⟩

/-! ### Literals -/

theorem escapeChar_cases (c : Char) :
    escapeChar c = [c] ∧ c ≠ '\\' ∧ c ≠ '"' ∨ ∃ e, escapeChar c = ['\\', e] := by
  unfold escapeChar
  split <;> simp_all

theorem escapeChar_injective : Function.Injective escapeChar := by
  intro c d h
  unfold escapeChar at h
  split at h <;> split at h <;> simp_all

/-- No escape begins another. -/
theorem escapeChar_cut {c d : Char} {r s : List Char} (h : escapeChar c ++ r = escapeChar d ++ s) :
    c = d ∧ r = s := by
  have hlen : (escapeChar c).length = (escapeChar d).length := by
    rcases escapeChar_cases c with ⟨hc, hne, -⟩ | ⟨e, hc⟩ <;>
      rcases escapeChar_cases d with ⟨hd, hne', -⟩ | ⟨e', hd⟩
    all_goals rw [hc, hd] at h ⊢
    · rfl
    · exact absurd (List.cons.inj h).1 hne
    · exact absurd (List.cons.inj h).1.symm hne'
    · rfl
  obtain ⟨hcd, hrs⟩ := List.append_inj h hlen
  exact ⟨escapeChar_injective hcd, hrs⟩

theorem escapeChar_ne_quote (c : Char) (r s : List Char) : escapeChar c ++ r ≠ '"' :: s := by
  intro h
  rcases escapeChar_cases c with ⟨hc, -, hne⟩ | ⟨e, hc⟩
  · rw [hc] at h
    exact hne (List.cons.inj h).1
  · rw [hc] at h
    exact absurd (List.cons.inj h).1 (by decide)

/-- The body of a literal ends at the first quote that is not part of an escape. -/
theorem escape_cut {cs ds r s : List Char} (h : escape cs ++ '"' :: r = escape ds ++ '"' :: s) : cs = ds ∧ r = s := by
  induction cs generalizing ds with
  | nil =>
    cases ds with
    | nil => exact ⟨rfl, (List.cons.inj h).2⟩
    | cons d ds =>
      rw [escape, escape, List.flatMap_cons, List.append_assoc] at h
      exact absurd h.symm (escapeChar_ne_quote d _ _)
  | cons c cs ih =>
    cases ds with
    | nil =>
      rw [escape, escape, List.flatMap_cons, List.append_assoc] at h
      exact absurd h (escapeChar_ne_quote c _ _)
    | cons d ds =>
      rw [escape, escape, List.flatMap_cons, List.flatMap_cons, List.append_assoc, List.append_assoc] at h
      obtain ⟨rfl, htail⟩ := escapeChar_cut h
      obtain ⟨rfl, hrest⟩ := ih htail
      exact ⟨rfl, hrest⟩

/-- After the closing quote stands a tag, or a datatype other than the plain one, or nothing. -/
theorem literalTail_cut {l m : Literal} (hl : l.Made) (hm : m.Made) {r s : List Char}
    (h : literalTail l ++ ' ' :: r = literalTail m ++ ' ' :: s) :
    l.datatype = m.datatype ∧ l.language = m.language ∧ r = s := by
  have hspace : ∀ {tag : String}, (∀ c ∈ tag.toList, Text.isBlank c = false) → ' ' ∉ tag.toList :=
    fun h hmem => by
    have := h ' ' hmem
    revert this
    decide
  rcases hl.cases with ⟨tag, hltag, hltype, hlb⟩ | ⟨hltag, hlw⟩ <;>
    rcases hm.cases with ⟨tag', hmtag, hmtype, hmb⟩ | ⟨hmtag, hmw⟩
  all_goals simp only [literalTail, hltag, hmtag] at h ⊢
  case inl.inl =>
    obtain ⟨htag, hrest⟩ := cut_at (hspace hlb) (hspace hmb) (List.cons.inj h).2
    rw [String.toList_inj] at htag
    exact ⟨hltype.trans hmtype.symm, congrArg some htag, hrest⟩
  case inl.inr => split at h <;> simp at h
  case inr.inl => split at h <;> simp at h
  case inr.inr =>
    split at h <;> split at h
    · next hl hm => exact ⟨hl.trans hm.symm, trivial, (List.cons.inj h).2⟩
    · simp at h
    · simp at h
    · obtain ⟨hdatatype, hrest⟩ := iri_cut hlw hmw (List.cons.inj (List.cons.inj h).2).2
      exact ⟨hdatatype, trivial, (List.cons.inj hrest).2⟩

theorem literal_cut {l m : Literal} (hl : l.Made) (hm : m.Made) {r s : List Char}
    (h : literal l ++ ' ' :: r = literal m ++ ' ' :: s) : l = m ∧ r = s := by
  simp only [literal, List.cons_append, List.append_assoc, List.cons.injEq, true_and] at h
  obtain ⟨hlexical, htail⟩ := escape_cut h
  obtain ⟨hdatatype, hlanguage, hrest⟩ := literalTail_cut hl hm htail
  cases l
  cases m
  rw [String.toList_inj] at hlexical
  exact ⟨by congr, hrest⟩

/-- Terms of different kinds differ in their first character. -/
theorem term_cut {t u : Term} (ht : t.Printable) (hu : u.Printable) {r s : List Char}
    (h : term t ++ ' ' :: r = term u ++ ' ' :: s) : t = u ∧ r = s := by
  cases t with
  | iri i =>
    cases u with
    | iri j =>
      obtain ⟨rfl, hrest⟩ := iri_cut ht hu h
      exact ⟨rfl, (List.cons.inj hrest).2⟩
    | blank b => cases h
    | literal l => cases h
  | blank a =>
    cases u with
    | iri j => cases h
    | blank b =>
      obtain ⟨rfl, hrest⟩ := blank_cut h
      exact ⟨rfl, hrest⟩
    | literal l => cases h
  | literal l =>
    cases u with
    | iri j => cases h
    | blank b => cases h
    | literal m =>
      obtain ⟨rfl, hrest⟩ := literal_cut ht hu h
      exact ⟨rfl, hrest⟩

theorem triple_injective {t u : Triple} (ht : t.Printable) (hu : u.Printable) (h : triple t = triple u) : t = u := by
  simp only [triple, subject, List.append_assoc, List.cons_append] at h
  obtain ⟨hsubject, h⟩ := term_cut ht.subject hu.subject h
  obtain ⟨hpredicate, h⟩ := iri_cut ht.predicate hu.predicate h
  obtain ⟨hobject, -⟩ := term_cut ht.object hu.object (List.cons.inj h).2
  cases t
  cases u
  cases Subject.toTerm_injective hsubject
  cases hpredicate
  cases hobject
  rfl

/-! ## No line breaks -/

/-- Nothing in it ends a line. -/
def Unbroken (cs : List Char) : Prop := ∀ c ∈ cs, c ≠ '\n' ∧ c ≠ '\r'

theorem unbroken_nil : Unbroken [] := List.forall_mem_nil _

theorem unbroken_cons {c : Char} {cs : List Char} :
    Unbroken (c :: cs) ↔ (c ≠ '\n' ∧ c ≠ '\r') ∧ Unbroken cs :=
  List.forall_mem_cons

theorem unbroken_append {cs ds : List Char} : Unbroken (cs ++ ds) ↔ Unbroken cs ∧ Unbroken ds :=
  List.forall_mem_append

theorem unbroken_of_isBlank {cs : List Char} (h : ∀ c ∈ cs, Text.isBlank c = false) : Unbroken cs := by
  intro c hc
  constructor
  all_goals
    rintro rfl
    exact absurd (h _ hc) (by decide)

theorem unbroken_iri {i : Iri} (h : i.WellFormed) : Unbroken (iri i) := by
  have htext : Unbroken i.text.toList := unbroken_of_isBlank fun c hc => by
    have hlegal := (Iri.wellFormed_iff.mp h).2.2 c hc
    simp only [Iri.illegalChar, Bool.or_eq_false_iff] at hlegal
    exact hlegal.1.1.1
  simp only [iri, unbroken_append, unbroken_cons]
  exact ⟨⟨by decide, htext⟩, by decide, unbroken_nil⟩

theorem unbroken_digits (n : Nat) : Unbroken (Nat.toDigits 10 n) := by
  intro c hc
  have hdigit := isDigit_of_mem_toDigits hc
  constructor
  all_goals
    rintro rfl
    exact absurd hdigit (by decide)

theorem unbroken_blank (b : BlankNode) : Unbroken (blank b) := by
  have hscope := unbroken_digits b.scope.toNat
  have hindex := unbroken_digits b.index.toNat
  simp only [blank, unbroken_append, unbroken_cons]
  exact ⟨⟨by decide, by decide, by decide, hscope⟩, by decide, hindex⟩

theorem unbroken_escapeChar (c : Char) : Unbroken (escapeChar c) := by
  unfold escapeChar Unbroken
  split <;> simp_all

theorem unbroken_literal {l : Literal} (h : l.Made) : Unbroken (literal l) := by
  have hbody : Unbroken (escape l.lexical.toList) := by
    intro c hc
    obtain ⟨d, -, hd⟩ := List.mem_flatMap.mp hc
    exact unbroken_escapeChar d c hd
  have htail : Unbroken (literalTail l) := by
    rcases h.cases with ⟨tag, htag, -, hb⟩ | ⟨htag, hw⟩
    · simpa [Unbroken, literalTail, htag] using unbroken_of_isBlank hb
    · have hiri := unbroken_iri hw
      unfold literalTail
      rw [htag]
      dsimp only
      split
      · nofun
      · simpa [Unbroken] using hiri
  simp only [literal, unbroken_append, unbroken_cons]
  exact ⟨⟨by decide, hbody⟩, by decide, htail⟩

theorem unbroken_term {t : Term} (h : t.Printable) : Unbroken (term t) := by
  cases t with
  | iri i => exact unbroken_iri h
  | blank b => exact unbroken_blank b
  | literal l => exact unbroken_literal h

theorem unbroken_triple {t : Triple} (h : t.Printable) : Unbroken (triple t) := by
  have hsubject := unbroken_term h.subject
  have hpredicate := unbroken_iri h.predicate
  have hobject := unbroken_term h.object
  simp only [triple, subject, unbroken_append, unbroken_cons]
  exact ⟨⟨⟨hsubject, by decide, hpredicate⟩, by decide, hobject⟩, by decide, by decide, unbroken_nil⟩

end NTriples

/-! ## Lines -/

theorem Triple.line_injective {t u : Triple} (ht : t.Printable) (hu : u.Printable) (h : t.line = u.line) : t = u :=
  NTriples.triple_injective ht hu (String.ofList_injective h)

theorem Triple.line_unbroken {t : Triple} (h : t.Printable) : '\n' ∉ t.line.toList ∧ '\r' ∉ t.line.toList := by
  rw [Triple.line, String.toList_ofList]
  exact ⟨fun hn => (NTriples.unbroken_triple h _ hn).1 rfl, fun hr => (NTriples.unbroken_triple h _ hr).2 rfl⟩

/-- Lines without line breaks can be told apart where they are put together. -/
theorem Listing.lines_injective {ls ms : List String} (hl : ∀ l ∈ ls, '\n' ∉ l.toList)
    (hm : ∀ m ∈ ms, '\n' ∉ m.toList) (h : lines ls = lines ms) : ls = ms := by
  have hcons : ∀ (l : String) (ls : List String), (lines (l :: ls)).toList = l.toList ++ '\n' :: (lines ls).toList := by
    intro l ls
    simp [lines, line, String.toList_join]
  induction ls generalizing ms with
  | nil =>
    cases ms with
    | nil => rfl
    | cons m ms =>
      have hempty := congrArg String.toList h
      rw [hcons] at hempty
      simp [lines] at hempty
  | cons l ls ih =>
    cases ms with
    | nil =>
      have hempty := congrArg String.toList h
      rw [hcons] at hempty
      simp [lines] at hempty
    | cons m ms =>
      have htext := congrArg String.toList h
      rw [hcons, hcons] at htext
      obtain ⟨hfirst, hrest⟩ := NTriples.cut_at (hl l List.mem_cons_self) (hm m List.mem_cons_self) htext
      rw [String.toList_inj] at hfirst hrest
      rw [hfirst, ih (fun l' h' => hl l' (List.mem_cons_of_mem l h'))
        (fun m' h' => hm m' (List.mem_cons_of_mem m h')) hrest]

theorem Graph.eq_of_lines {g h : Graph} (hg : ∀ t ∈ g, t.Printable) (hh : ∀ t ∈ h, t.Printable)
    (heq : g.toList.map Triple.line = h.toList.map Triple.line) : g = h := by
  have hsub : ∀ {a b : Graph}, (∀ t ∈ a, t.Printable) → (∀ t ∈ b, t.Printable) →
      a.toList.map Triple.line = b.toList.map Triple.line → ∀ t ∈ a, t ∈ b := by
    intro a b ha hb hab t ht
    have hline : t.line ∈ b.toList.map Triple.line := hab ▸ List.mem_map_of_mem (ExtTreeSet.mem_toList.mpr ht)
    obtain ⟨u, hu, heq⟩ := List.mem_map.mp hline
    rw [ExtTreeSet.mem_toList] at hu
    rwa [← Triple.line_injective (hb u hu) (ha t ht) heq]
  exact ExtTreeSet.ext_mem fun t => ⟨hsub hg hh heq t, hsub hh hg heq.symm t⟩

/-- The line of a printable triple is one line, and that of no other. What is printed of a graph, line by
    line or as the block of a listing, is printed of no other graph of printable triples. -/
theorem lines_determine :
    (∀ t : Triple, t.Printable → '\n' ∉ t.line.toList ∧ '\r' ∉ t.line.toList) ∧
    (∀ t u : Triple, t.Printable → u.Printable → t.line = u.line → t = u) ∧
    ∀ g h : Graph, (∀ t ∈ g, t.Printable) → (∀ t ∈ h, t.Printable) →
      (g.toList.map Triple.line = h.toList.map Triple.line → g = h) ∧
      ∀ n : GraphName, Listing.lines (Listing.graph (n, g)) = Listing.lines (Listing.graph (n, h)) → g = h := by
  refine ⟨fun t ht => Triple.line_unbroken ht, fun t u ht hu => Triple.line_injective ht hu, fun g h hg hh => ?_⟩
  refine ⟨Graph.eq_of_lines hg hh, fun n heq => Graph.eq_of_lines hg hh ?_⟩
  have hno : ∀ {a : Graph}, (∀ t ∈ a, t.Printable) → ∀ l ∈ a.toList.map Triple.line, '\n' ∉ l.toList := by
    intro a ha l hl
    obtain ⟨t, ht, rfl⟩ := List.mem_map.mp hl
    exact (Triple.line_unbroken (ha t (ExtTreeSet.mem_toList.mp ht))).1
  refine Listing.lines_injective (hno hg) (hno hh) ?_
  have htext := congrArg String.toList heq
  simp only [Listing.lines, Listing.graph, List.map_cons, String.toList_join, List.flatMap_cons,
    List.append_cancel_left_eq] at htext
  rwa [← String.toList_join, ← String.toList_join, String.toList_inj] at htext

def saying (lexical : String) : Triple := ⟨.iri ⟨"urn:s"⟩, ⟨"urn:p"⟩, .literal (.simple lexical)⟩

theorem printable_saying (lexical : String) : (saying lexical).Printable :=
  ⟨show Iri.WellFormed ⟨"urn:s"⟩ by decide, show Iri.WellFormed ⟨"urn:p"⟩ by decide, .simple lexical⟩

/-- A literal that is written to pass for two triples is printed on one line, and passes for neither. -/
theorem forgery_told_apart :
    let forged := saying "a\" .\n<urn:s> <urn:p> \"b"
    (forged.Printable ∧ (saying "a").Printable ∧ (saying "b").Printable) ∧
      ('\n' ∉ forged.line.toList ∧ '\r' ∉ forged.line.toList) ∧ forged.line ≠ (saying "a").line ∧
      Listing.lines (Listing.graph (none, .ofList [forged])) ≠
        Listing.lines (Listing.graph (none, .ofList [saying "a", saying "b"])) := by
  intro forged
  have hforged := printable_saying "a\" .\n<urn:s> <urn:p> \"b"
  have ha := printable_saying "a"
  have hb := printable_saying "b"
  obtain ⟨hunbroken, hdetermined, hgraphs⟩ := lines_determine
  refine ⟨⟨hforged, ha, hb⟩, hunbroken forged hforged, fun h => ?_, fun h => ?_⟩
  · exact absurd (hdetermined _ _ hforged ha h) (by decide)
  · have hone : ∀ t ∈ Graph.ofList [forged], t.Printable := by simpa [Graph.ofList] using hforged
    have htwo : ∀ t ∈ Graph.ofList [saying "a", saying "b"], t.Printable := by simp [Graph.ofList, ha, hb]
    have hmem : forged ∈ Graph.ofList [saying "a", saying "b"] := by
      rw [← (hgraphs _ _ hone htwo).2 none h]
      simp [Graph.ofList]
    simp only [Graph.ofList, ExtTreeSet.mem_ofList] at hmem
    exact absurd hmem (by decide)

end LinkedData
