/-
  LinkedData.Proofs.Persistence — records on a disk are the records that were stored.

  A decoder reads its bytes from the front and decides as soon as it has seen enough: more bytes
  behind them change nothing (`Settles`). So bytes that decode to a value and leave nothing over can
  not lose their end and still decode, and with the round trips of `Proofs.Decoding` each form is
  exact (`Exact.of_reads`): what was written is read with anything after it, no part of it that
  stops early is read, and two values are never written alike. This holds of resources and of
  records whose times are instants of the calendar, and so a disk gives back every record of a batch
  as it was (`persisted_records_decode`), whatever was on the disk before.
-/

import LinkedData.Proofs.Histories
import LinkedData.Proofs.Stores
import LinkedData.Store

namespace LinkedData

open Std

namespace Encoding

/-! ## More bytes change nothing -/

/-- What `d` has decided stays so, whatever follows the bytes it was given. -/
def Settles {α : Type} (d : Bytes → Option (α × Bytes)) : Prop :=
  ∀ bs a rest, d bs = some (a, rest) → ∀ more, d (bs ++ more) = some (a, rest ++ more)

section

variable {α β : Type} {d : Bytes → Option (α × Bytes)}

theorem Settles.pure (a : α) : Settles fun bs => some (a, bs) := by
  intro bs _ _ h more
  cases h
  rfl

theorem Settles.refused : Settles fun _ : Bytes => (none : Option (α × Bytes)) := by
  intro bs a rest h
  cases h

theorem Settles.bind {e : α × Bytes → Option (β × Bytes)} (hd : Settles d)
    (he : ∀ a, Settles fun bs => e (a, bs)) :
    Settles fun bs => d bs >>= e := by
  intro bs b rest h more
  obtain ⟨⟨a, mid⟩, hfirst, hsecond⟩ := Option.bind_eq_some_iff.mp h
  exact bind_of_eq_some (hd bs a mid hfirst more) (he a mid b rest hsecond more)

/-- A condition that does not read on. -/
theorem Settles.check {o : Option α} {e : α → Bytes → Option (β × Bytes)} (he : ∀ a, Settles (e a)) :
    Settles fun bs => o >>= fun a => e a bs := by
  intro bs b rest h more
  obtain ⟨a, ho, hsecond⟩ := Option.bind_eq_some_iff.mp h
  exact bind_of_eq_some ho (he a bs b rest hsecond more)

theorem Settles.map (hd : Settles d) (g : α → β) : Settles fun bs => (d bs).map fun r => (g r.1, r.2) := by
  intro bs b rest h more
  obtain ⟨⟨a, mid⟩, hfirst, hsecond⟩ := Option.map_eq_some_iff.mp h
  cases hsecond
  exact Option.map_eq_some_iff.mpr ⟨(a, mid ++ more), hd bs a mid hfirst more, rfl⟩

theorem settles_number (width : Nat) : Settles (decodeNumber width) := by
  induction width with
  | zero => exact Settles.pure 0
  | succ width ih =>
    intro bs n rest h more
    cases bs with
    | nil => cases h
    | cons b bs =>
      obtain ⟨⟨high, mid⟩, hhigh, hn⟩ := Option.bind_eq_some_iff.mp h
      cases hn
      exact bind_of_eq_some (ih bs high rest hhigh more) rfl

theorem settles_take (n : Nat) : Settles (takeBytes n) := by
  intro bs a rest h more
  unfold takeBytes at h ⊢
  split at h
  · rename_i hn
    cases h
    rw [if_pos (by rw [List.length_append]; omega), List.take_append_of_le_length hn, List.drop_append_of_le_length hn]
  · cases h

theorem settles_text : Settles decodeText := by
  refine (settles_number 8).bind fun n => (settles_take n).bind fun _ => ?_
  exact Settles.check fun _ => Settles.pure _

theorem settles_option (hd : Settles d) : Settles (decodeOption d) := by
  intro bs o rest h more
  unfold decodeOption at h
  split at h
  · cases h
    rfl
  · rename_i bs
    obtain ⟨⟨a, mid⟩, hfirst, hsecond⟩ := Option.bind_eq_some_iff.mp h
    cases hsecond
    exact bind_of_eq_some (hd bs a rest hfirst more) rfl
  · cases h

theorem settles_many (hd : Settles d) (n : Nat) : Settles (decodeMany d n) := by
  induction n with
  | zero => exact Settles.pure []
  | succ n ih => exact hd.bind fun _ => ih.bind fun _ => Settles.pure _

theorem settles_list (hd : Settles d) : Settles (decodeList d) := (settles_number 8).bind (settles_many hd)

end

theorem settles_iri : Settles decodeIri := settles_text.bind fun _ => Settles.pure _

theorem settles_blank : Settles decodeBlank := by
  refine (settles_number 8).bind fun _ => ?_
  exact (settles_number 4).bind fun _ => Settles.pure _

theorem settles_literal : Settles decodeLiteral := by
  refine settles_text.bind fun _ => ?_
  refine settles_iri.bind fun _ => ?_
  exact (settles_option settles_text).bind fun _ => Settles.pure _

theorem settles_subject : Settles decodeSubject := by
  refine (settles_number 4).bind fun alternative => ?_
  match alternative with
  | 0 => exact settles_iri.map Subject.iri
  | 1 => exact settles_blank.map Subject.blank
  | _ + 2 => exact Settles.refused

theorem settles_term : Settles decodeTerm := by
  refine (settles_number 4).bind fun alternative => ?_
  match alternative with
  | 0 => exact settles_iri.map Term.iri
  | 1 => exact settles_blank.map Term.blank
  | 2 => exact settles_literal.map Term.literal
  | _ + 3 => exact Settles.refused

theorem settles_triple : Settles decodeTriple := by
  refine settles_subject.bind fun _ => ?_
  refine settles_iri.bind fun _ => ?_
  exact settles_term.bind fun _ => Settles.pure _

theorem settles_graph : Settles decodeGraph :=
  (settles_list settles_triple).bind fun _ => Settles.pure _

theorem settles_graphName : Settles decodeGraphName := by
  refine (settles_number 4).bind fun alternative => ?_
  match alternative with
  | 0 => exact Settles.pure none
  | 1 => exact settles_iri.map some
  | _ + 2 => exact Settles.refused

theorem settles_namedGraph : Settles decodeNamedGraph :=
  settles_graphName.bind fun _ => settles_graph.bind fun _ => Settles.pure _

theorem settles_dataset : Settles decodeDataset :=
  (settles_list settles_namedGraph).bind fun _ => Settles.pure _

theorem settles_model : Settles decodeModel :=
  (settles_number 4).bind fun _ => Settles.check fun _ => Settles.pure _

theorem settles_instant : Settles decodeInstant :=
  settles_text.bind fun _ => Settles.check fun _ => Settles.pure _

theorem settles_binary : Settles decodeBinary := by
  refine settles_iri.bind fun _ => ?_
  refine (settles_option settles_text).bind fun _ => ?_
  refine (settles_number 8).bind fun _ => ?_
  exact settles_text.bind fun _ => Settles.pure _

theorem settles_resource : Settles decodeResource := by
  refine settles_iri.bind fun _ => ?_
  refine settles_model.bind fun _ => ?_
  refine settles_dataset.bind fun _ => ?_
  refine settles_instant.bind fun _ => ?_
  exact (settles_option settles_binary).bind fun _ => Settles.pure _

theorem settles_record : Settles decodeRecord :=
  settles_resource.bind fun _ => (settles_option settles_instant).bind fun _ => Settles.pure _

/-! ## Exact forms -/

/-- `d` inverts `f` at `a`: it reads what was written, with anything after it, and nothing that stops early. -/
structure Exact {α : Type} (f : α → Bytes) (d : Bytes → Option (α × Bytes)) (a : α) : Prop where
  decoded : ∀ rest, d (f a ++ rest) = some (a, rest)
  cut : ∀ part, part <+: f a → part ≠ f a → d part = none

section

variable {α : Type} {f : α → Bytes} {d : Bytes → Option (α × Bytes)} {a b : α}

theorem Exact.of_reads (hr : Reads f d a) (hd : Settles d) (h : (f a).length < 2 ^ 64) : Exact f d a := by
  refine ⟨hr h, ?_⟩
  rintro part ⟨missing, hpart⟩ hne
  cases hread : d part with
  | none => rfl
  | some r =>
    obtain ⟨b, rest⟩ := r
    have hwhole : d (f a) = some (b, rest ++ missing) := by
      rw [← hpart]
      exact hd part b rest hread missing
    have hnothing := hr h []
    rw [List.append_nil, hwhole, Option.some.injEq, Prod.mk.injEq, List.append_eq_nil_iff] at hnothing
    obtain ⟨-, -, hmissing⟩ := hnothing
    rw [hmissing, List.append_nil] at hpart
    exact absurd hpart hne

theorem Exact.eq_of_bytes_eq (ha : Exact f d a) (hb : Exact f d b) (h : f a = f b) : a = b := by
  have hread := ha.decoded []
  rw [h, hb.decoded [], Option.some.injEq, Prod.mk.injEq] at hread
  exact hread.1.symm

end

end Encoding

/-! ## Records -/

/-- Its times are in the calendar, and the length of its bytes is a length. -/
def Record.Readable (r : Record) : Prop :=
  r.resource.modified.Valid ∧ (∀ t ∈ r.tombstonedAt, t.Valid) ∧ (Encoding.record r).length < 2 ^ 64

theorem Encoding.reads_record {r : Record} (hm : r.resource.modified.Valid) (ht : ∀ t ∈ r.tombstonedAt, t.Valid) :
    Reads record decodeRecord r := by
  intro h rest
  rw [record, List.length_append] at h
  rw [record, List.append_assoc]
  refine bind_of_eq_some (reads_resource hm (by omega) _) ?_
  exact bind_of_eq_some (reads_option (fun t hmem => reads_instant (ht t hmem)) (by omega) rest) rfl

theorem Resource.Readable.exact {r : Resource} (h : r.Readable) :
    Encoding.Exact Encoding.resource Encoding.decodeResource r :=
  .of_reads (Encoding.reads_resource h.1) Encoding.settles_resource h.2

theorem Record.Readable.exact {r : Record} (h : r.Readable) : Encoding.Exact Encoding.record Encoding.decodeRecord r :=
  .of_reads (Encoding.reads_record h.1 h.2.1) Encoding.settles_record h.2.2

namespace Disk

theorem cells_put (d : Disk) (r : Record) (id : Iri) :
    (d.put r).cells[id]? = if r.id = id then some (Encoding.record r) else d.cells[id]? := by
  simp [put, putRaw, ExtTreeMap.getElem?_insert, LawfulEqCmp.compare_eq_iff_eq]

theorem cells_putBatch_of_mem (d : Disk) {rs : List Record} {r : Record} (hn : (rs.map Record.id).Nodup)
    (h : r ∈ rs) :
    (d.putBatch rs).cells[r.id]? = some (Encoding.record r) :=
  lookup_foldl_of_mem (fun d id => d.cells[id]?) cells_put d hn h

theorem cells_putBatch_of_not_mem (d : Disk) {rs : List Record} {id : Iri} (h : id ∉ rs.map Record.id) :
    (d.putBatch rs).cells[id]? = d.cells[id]? :=
  lookup_foldl_of_not_mem (fun d id => d.cells[id]?) cells_put d h

theorem get_putBatch_of_mem (d : Disk) {rs : List Record} {r : Record} (hn : (rs.map Record.id).Nodup) (h : r ∈ rs)
    (hr : r.Readable) : (d.putBatch rs).get r.id = .ok (some r) := by
  have hread := hr.exact.decoded []
  rw [List.append_nil] at hread
  unfold get
  rw [cells_putBatch_of_mem d hn h]
  dsimp only
  rw [hread]

theorem get_putBatch_of_not_mem (d : Disk) {rs : List Record} {id : Iri} (h : id ∉ rs.map Record.id) :
    (d.putBatch rs).get id = d.get id := by
  unfold get
  rw [cells_putBatch_of_not_mem d h]

end Disk

open Encoding in
/-- The bytes of resources and of records are exact, no two are alike, and a batch is found again on the disk. -/
theorem persisted_records_decode :
    (∀ r : Resource, r.Readable → Exact resource decodeResource r) ∧
    (∀ r : Record, r.Readable → Exact record decodeRecord r) ∧
    (∀ a b : Resource, a.Readable → b.Readable → resource a = resource b → a = b) ∧
    (∀ a b : Record, a.Readable → b.Readable → record a = record b → a = b) ∧
    ∀ (d : Disk) (rs : List Record), (rs.map Record.id).Nodup → (∀ r ∈ rs, r.Readable) →
      ∃ d', RecordStore.putBatch d rs = .ok d' ∧ (∀ r ∈ rs, RecordStore.get d' r.id = .ok (some r)) ∧
        ∀ id, id ∉ rs.map Record.id → RecordStore.get d' id = RecordStore.get d id := by
  refine ⟨fun _ => Resource.Readable.exact, fun _ => Record.Readable.exact, ?_, ?_, ?_⟩
  · intro a b ha hb h
    exact ha.exact.eq_of_bytes_eq hb.exact h
  · intro a b ha hb h
    exact ha.exact.eq_of_bytes_eq hb.exact h
  · intro d rs hn hrs
    refine ⟨d.putBatch rs, rfl, ?_, ?_⟩
    · intro r hr
      exact d.get_putBatch_of_mem hn hr (hrs r hr)
    · intro id hid
      exact d.get_putBatch_of_not_mem hid

/-- A deleted picture: a caption in French, a graph without triples, modified in the year 12345 and deleted
    in a leap second before the year 0. -/
def distantPicture : Record where
  resource :=
    { id := ⟨"trellis:data/é"⟩
      model := .nonRdfSource
      dataset := (Dataset.ofUserGraph
        {⟨.blank ⟨7, 0⟩, ⟨"urn:p"⟩, .literal ⟨"Été", Vocabulary.Rdf.langString, some "fr"⟩⟩}).update
        .audit id
      modified := ⟨327403641599, 120000000⟩
      binary := some ⟨⟨"file:///b"⟩, some "image/png", 3, "00"⟩ }
  tombstonedAt := some ⟨-62198755201, 1500000000⟩

example : Encoding.option Encoding.instant distantPicture.tombstonedAt =
    1 :: Encoding.text "-0002-12-31T23:59:60.500Z" := by decide +kernel

open Encoding in
theorem distant_picture_decodes :
    distantPicture.Readable ∧ Exact record decodeRecord distantPicture ∧
    Exact resource decodeResource distantPicture.resource ∧
    (∀ r : Record, r.Readable → record r = record distantPicture → r = distantPicture) ∧
    (∀ r : Resource, r.Readable → resource r = resource distantPicture.resource → r = distantPicture.resource) ∧
    ∃ d', RecordStore.putBatch Disk.empty [distantPicture] = .ok d' ∧
      RecordStore.get d' ⟨"trellis:data/é"⟩ = .ok (some distantPicture) := by
  have hrecord : distantPicture.Readable := by
    refine ⟨by decide +kernel, ?_, by decide +kernel⟩
    rintro t ⟨⟩
    decide +kernel
  have hresource : distantPicture.resource.Readable := by decide +kernel
  obtain ⟨hr, hs, hresources, hrecords, hdisk⟩ := persisted_records_decode
  obtain ⟨d', hput, hget, -⟩ := hdisk Disk.empty [distantPicture] (List.nodup_singleton _)
    (List.forall_mem_singleton.mpr hrecord)
  exact ⟨hrecord, hs _ hrecord, hr _ hresource, fun r hr => hrecords r _ hr hrecord,
    fun r hr => hresources r _ hr hresource, d', hput, hget _ (List.mem_singleton_self _)⟩

end LinkedData
