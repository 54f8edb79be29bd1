/-
  LinkedData.Proofs.Agents — which agents may stand in the log of activities.

  A name that is no IRI of its own is put after the space of names, whatever it was refused for. Put
  after a well-formed space, a name without a scheme, or with a bad one, becomes an IRI; one with an
  illegal character does not (`wellFormed_append`). So an agent is well-formed just if the trimmed name
  has no illegal character, and then what is logged of its activities is printed on single lines, each
  that of no other triple (`agents_logged`). A name with brackets and a line feed in it makes two lines
  of one triple, and the second says what the name wants it to say (`agent_forges_line`).
-/

import LinkedData.Agent
import LinkedData.Proofs.TripleLines
import LinkedData.Repository

namespace LinkedData

open Vocabulary

/-- The name of a principal, without the blanks around it; nobody has the empty one. -/
def agentName (principal : Option String) : List Char := (principal.map fun name => Text.trim name.toList).getD []

/-- What stands before the first colon is all in the part that has one. -/
theorem takeWhile_append_of_mem {c : Char} {cs : List Char} (h : c ∈ cs) (ds : List Char) :
    (cs ++ ds).takeWhile (· ≠ c) = cs.takeWhile (· ≠ c) := by
  induction cs with
  | nil => cases h
  | cons d cs ih =>
    by_cases hd : d = c
    · simp [hd]
    · have hmem : c ∈ cs := (List.mem_cons.mp h).resolve_left (Ne.symm hd)
      simp only [List.cons_append, List.takeWhile_cons, ih hmem]

/-- An IRI may go on with anything legal. -/
theorem Iri.wellFormed_append {i : Iri} (h : i.WellFormed) (cs : List Char) :
    (Iri.mk (String.ofList (i.text.toList ++ cs))).WellFormed ↔ ∀ c ∈ cs, illegalChar c = false := by
  obtain ⟨hcolon, hscheme, hlegal⟩ := wellFormed_iff.mp h
  rw [wellFormed_iff, String.toList_ofList, takeWhile_append_of_mem hcolon, List.forall_mem_append]
  constructor
  · exact fun ⟨_, _, _, hcs⟩ => hcs
  · exact fun hcs => ⟨List.mem_append_left _ hcolon, hscheme, hlegal, hcs⟩

theorem agentOf_wellFormed_iff {space : Iri} (h : space.WellFormed) (principal : Option String) :
    (agentOf space.text principal).WellFormed ↔ ∀ c ∈ agentName principal, Iri.illegalChar c = false := by
  have hanonymous : Server.anonymousAgent.WellFormed := by decide
  cases principal with
  | none => exact ⟨fun _ => by nofun, fun _ => hanonymous⟩
  | some principal =>
    simp only [agentOf, agentName, Option.map_some, Option.getD_some]
    generalize Text.trim principal.toList = name
    split
    · next hblank =>
      rw [hblank]
      exact ⟨fun _ => by nofun, fun _ => hanonymous⟩
    · split
      · next i hok =>
        obtain ⟨rfl, hw⟩ := Iri.parse_eq_ok.mp hok
        have hlegal := (Iri.wellFormed_iff.mp hw).2.2
        rw [String.toList_ofList] at hlegal
        exact ⟨fun _ => hlegal, fun _ => hw⟩
      · exact Iri.wellFormed_append h name

theorem printable_auditTriples {id agent : Iri} (hid : id.WellFormed) (ha : agent.WellFormed) (activity : BlankNode)
    (kind : ChangeKind) (time : Instant) :
    ∀ t ∈ Mutation.auditTriples id activity kind agent time, t.Printable := by
  have hgenerated : Prov.wasGeneratedBy.WellFormed := by decide
  have htype : Rdf.type.WellFormed := by decide
  have hactivity : Prov.activity.WellFormed := by decide
  have hkind : kind.activity.WellFormed := by cases kind <;> decide
  have hassociated : Prov.wasAssociatedWith.WellFormed := by decide
  have hat : Prov.atTime.WellFormed := by decide
  have hdate : Xsd.dateTime.WellFormed := by decide
  simp only [Mutation.auditTriples, List.forall_mem_cons]
  exact ⟨⟨hid, hgenerated, trivial⟩, ⟨trivial, htype, hactivity⟩, ⟨trivial, htype, hkind⟩,
    ⟨trivial, hassociated, ha⟩, ⟨trivial, hat, .typed _ hdate⟩, by nofun⟩

/-- In a well-formed space of names, an agent is a well-formed IRI just if its name has no illegal
    character. What is logged of its activities is then printed on single lines, each of which is the
    line of no other printable triple. -/
theorem agents_logged {space : Iri} (h : space.WellFormed) (principal : Option String) :
    ((agentOf space.text principal).WellFormed ↔ ∀ c ∈ agentName principal, Iri.illegalChar c = false) ∧
    ((agentOf space.text principal).WellFormed →
      ∀ (id : Iri) (activity : BlankNode) (kind : ChangeKind) (time : Instant), id.WellFormed →
        ∀ t ∈ Mutation.auditTriples id activity kind (agentOf space.text principal) time,
          ('\n' ∉ t.line.toList ∧ '\r' ∉ t.line.toList) ∧
            ∀ u : Triple, u.Printable → u.line = t.line → u = t) := by
  refine ⟨agentOf_wellFormed_iff h principal, fun ha id activity kind time hid t ht => ?_⟩
  have hprintable := printable_auditTriples hid ha activity kind time t ht
  exact ⟨Triple.line_unbroken hprintable, fun u hu => Triple.line_injective hu hprintable⟩

/-- The triple that names the agent of an activity. -/
def associated (agent : Iri) : Triple := ⟨.blank ⟨0, 0⟩, Prov.wasAssociatedWith, .iri agent⟩

/-- A name that is refused for its scheme becomes an IRI in a space of names. -/
theorem refused_name_logged :
    let space : Iri := ⟨"http://example.org/users/"⟩
    let agent := agentOf space.text (some " 1:2\n")
    space.WellFormed ∧ Iri.parse "1:2" = .error .invalidScheme ∧ agent = ⟨"http://example.org/users/1:2"⟩ ∧
      agent.WellFormed ∧ '\n' ∉ (associated agent).line.toList ∧
        (associated agent).line ≠ (associated ⟨"http://example.org/users/1"⟩).line := by
  intro space agent
  have hspace : space.WellFormed := by decide
  obtain ⟨hiff, hlogged⟩ := agents_logged hspace (some " 1:2\n")
  have hlegal : (agentName (some " 1:2\n")).any Iri.illegalChar = false := by decide
  have hagent : agent.WellFormed := hiff.mpr (by simpa using hlegal)
  have hid : Iri.WellFormed ⟨"trellis:data/"⟩ := by decide
  have hmem : associated agent ∈ Mutation.auditTriples ⟨"trellis:data/"⟩ ⟨0, 0⟩ .created agent ⟨0, 0⟩ := by
    simp [associated, Mutation.auditTriples]
  obtain ⟨⟨hunbroken, -⟩, honly⟩ :=
    hlogged hagent ⟨"trellis:data/"⟩ ⟨0, 0⟩ .created ⟨0, 0⟩ hid (associated agent) hmem
  have hshort : (associated ⟨"http://example.org/users/1"⟩).Printable :=
    ⟨trivial, by decide, show Iri.WellFormed ⟨"http://example.org/users/1"⟩ by decide⟩
  refine ⟨hspace, by decide, by decide, hagent, hunbroken, fun h => ?_⟩
  exact absurd (honly _ hshort h.symm) (by decide)

/-- A name with a blank in it, or one that closes the bracket it stands in, is no part of an IRI. Of the
    latter the triple that names the agent is printed as two, of which the name chose the second. -/
theorem agent_forges_line :
    let space : Iri := ⟨"trellis:agent/"⟩
    let agent := agentOf space.text (some "eve> .\n<urn:s> <urn:p> <urn:o")
    space.WellFormed ∧ ¬ agent.WellFormed ∧ Iri.parse agent.text = .error .illegalCharacter ∧
      (associated agent).line =
        (associated ⟨"trellis:agent/eve"⟩).line ++ "\n" ++
          (Triple.mk (.iri ⟨"urn:s"⟩) ⟨"urn:p"⟩ (.iri ⟨"urn:o"⟩)).line := by
  decide

end LinkedData
