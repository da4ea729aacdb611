import SoundDesk.Proofs.RoundTrips
import SoundDesk.Config
import SoundDesk.Control.EventMask
import SoundDesk.Control.Info
import SoundDesk.Element.Id

/-!
# Proofs/Forms — the data that is stored and exchanged survives being written

One lemma per kind of data, each from those of its parts.  A record is written with all its fields, so a default
comes back as the value it stands for.  A mixer definition is the exception: its fields and the parameters share
one object, and what is missing is left out.  What keeps the two apart is that no parameter bears the name of a
field (`MixerDefinition.Proper`).
-/

namespace SoundDesk

open Json

/-! ## Controls -/

theorem Interface.roundTrips : RoundTrips decode encode := roundTrips_constant

theorem ControlId.roundTrips : RoundTrips decode encode := by
  refine roundTrips_fields ["numid", "iface", "device", "subdevice", "name", "index"] (record?_object (by decide))
    (fun id : ControlId => [.int id.numid, id.iface.encode, .int id.device, .int id.subdevice, .string id.name,
      .int id.index]) (fun _ => rfl) fun found id h => ?_
  split at h
  · simp only [Option.bind_eq_bind, Option.bind_eq_some_iff] at h
    obtain ⟨_, hnumid, _, hiface, _, hdevice, _, hsubdevice, _, hname, _, hindex, h⟩ := h
    cases h
    simp only [List.map_cons, List.map_nil]
    rw [roundTrips_nat32.required_bind hnumid, Interface.roundTrips.required_bind hiface,
      roundTrips_nat32.withDefault_bind hdevice rfl, roundTrips_nat32.withDefault_bind hsubdevice rfl,
      roundTrips_string.required_bind hname, roundTrips_nat32.withDefault_bind hindex rfl]
    rfl
  · cases h

theorem ControlEvent.roundTrips : RoundTrips decode encode := by
  refine roundTrips_fields ["id", "mask"] (record?_object (by decide))
    (fun e : ControlEvent => [e.id.encode, .int e.mask.bits.toNat]) (fun _ => rfl) fun found e h => ?_
  split at h
  · simp only [Option.bind_eq_bind, Option.bind_eq_some_iff] at h
    obtain ⟨_, hid, bits, hmask, h⟩ := h
    cases h
    have hbits : (UInt32.ofNat bits).toNat = bits := by
      obtain ⟨v, -, hv⟩ := Option.bind_eq_some_iff.mp hmask
      exact UInt32.toNat_ofNat_of_lt' (lt_of_nat32? hv)
    simp only [List.map_cons, List.map_nil, hbits]
    rw [ControlId.roundTrips.required_bind hid, roundTrips_nat32.required_bind hmask]
    rfl
  · cases h

theorem ValueKind.roundTrips : RoundTrips decode encode := roundTrips_constant

theorem DbScale.roundTrips : RoundTrips decode encode := by
  refine roundTrips_fields ["min", "max", "mute"] (record?_object (by decide))
    (fun s : DbScale => [ofInt64 s.min, ofInt64 s.max, .bool s.mute]) (fun _ => rfl) fun found s h => ?_
  split at h
  · simp only [Option.bind_eq_bind, Option.bind_eq_some_iff] at h
    obtain ⟨_, hmin, _, hmax, _, hmute, h⟩ := h
    cases h
    simp only [List.map_cons, List.map_nil]
    rw [roundTrips_int64.required_bind hmin, roundTrips_int64.required_bind hmax,
      roundTrips_bool.withDefault_bind hmute rfl]
    rfl
  · cases h

theorem ControlInfo.roundTrips : RoundTrips decode encode := by
  refine roundTrips_fields ["elem_type", "count", "min", "max", "step", "db", "items"] (record?_object (by decide))
    (fun info : ControlInfo => [info.kind.encode, .int info.count, ofInt64 info.min, ofInt64 info.max,
      ofInt64 info.step, ofOption DbScale.encode info.db, .array (info.items.map .string)])
    (fun _ => rfl) fun found info h => ?_
  have hscale := DbScale.roundTrips.nullable nofun
  split at h
  · simp only [Option.bind_eq_bind, Option.bind_eq_some_iff] at h
    obtain ⟨_, hkind, _, hcount, _, hmin, _, hmax, _, hstep, _, hdb, _, hitems, h⟩ := h
    cases h
    simp only [List.map_cons, List.map_nil]
    rw [ValueKind.roundTrips.required_bind hkind, roundTrips_nat32.required_bind hcount,
      roundTrips_int64.withDefault_bind hmin rfl, roundTrips_int64.withDefault_bind hmax rfl,
      roundTrips_int64.withDefault_bind hstep rfl, hscale.withDefault_bind hdb rfl,
      roundTrips_string.list.withDefault_bind hitems rfl]
    rfl
  · cases h

/-! ## Elements -/

theorem ElementId.roundTrips : RoundTrips decode encode := by
  refine roundTrips_fields ["name", "index"] (record?_object (by decide))
    (fun id : ElementId => [.string id.name, .int id.index]) (fun _ => rfl) fun found id h => ?_
  split at h
  · simp only [Option.bind_eq_bind, Option.bind_eq_some_iff] at h
    obtain ⟨_, hname, _, hindex, h⟩ := h
    cases h
    simp only [List.map_cons, List.map_nil]
    rw [roundTrips_string.required_bind hname, roundTrips_nat32.withDefault_bind hindex rfl]
    rfl
  · cases h

theorem Direction.roundTrips : RoundTrips decode encode := roundTrips_constant

/-! ## Types and settings -/

namespace RegistrySettings

variable {environment : Option OsPath} {s : RegistrySettings} {v : Json}

end RegistrySettings

/-! ## Mixer definitions -/

namespace MixerDefinition

variable {outer : Nat} {d : MixerDefinition} {fields : List (String × Json)}

/-- The fields that are written of a definition. -/
def written (d : MixerDefinition) : List (String × Json) :=
  ("type", .string d.type) :: (optionalField "comment" (d.comment.map .string) ++ optionalField "hint" d.hint
    ++ d.params.entries)

theorem encode_eq (d : MixerDefinition) : d.encode = .object d.written := rfl

/-- What a definition that was read inside `outer` containers is sure of. -/
structure Proper (outer : Nat) (d : MixerDefinition) : Prop where
  hint : ∀ v, d.hint = some v → v ≠ .null ∧ value? (outer + 1) v = some v
  keys : d.params.keys.Nodup
  /-- No parameter bears the name of a field. -/
  params : ∀ e ∈ d.params.entries, e.1 ∉ ownFields ∧ value? (outer + 1) e.2 = some e.2

/-- The parts that a definition is read from. -/
theorem decode_eq_some : decode outer (.object fields) = some d ↔
    ((single? fields "type").bind (required? asString?) = some d.type ∧
      (single? fields "comment").bind (withDefault? none (nullable? asString?)) = some d.comment ∧
      (single? fields "hint").bind (withDefault? none (nullable? (value? (outer + 1)))) = some d.hint) ∧
      table? (value? (outer + 1)) (.object (fields.filter fun f => !ownFields.contains f.1)) = some d.params := by
  obtain ⟨type, comment, hint, params⟩ := d
  simp only [decode, Option.bind_eq_bind, Option.bind_eq_some_iff]
  constructor
  · rintro ⟨t, ht, type', htype, c, hc, comment', hcomment, h, hh, hint', hhint, params', hparams, heq⟩
    cases heq
    exact ⟨⟨⟨t, ht, htype⟩, ⟨c, hc, hcomment⟩, ⟨h, hh, hhint⟩⟩, hparams⟩
  · rintro ⟨⟨⟨t, ht, htype⟩, ⟨c, hc, hcomment⟩, ⟨h, hh, hhint⟩⟩, hparams⟩
    exact ⟨t, ht, type, htype, c, hc, comment, hcomment, h, hh, hint, hhint, params, hparams, rfl⟩

/-- The value of an optional field, read where it is there and not null. -/
theorem nullableField {α : Type} {read : Json → Option α} {field : Option Json} {o : Option α}
    (h : withDefault? none (nullable? read) field = some o) :
    (o = none ∧ (field = none ∨ field = some .null)) ∨
      ∃ v a, v ≠ .null ∧ field = some v ∧ read v = some a ∧ o = some a := by
  cases field with
  | none => exact .inl ⟨(Option.some.inj h).symm, .inl rfl⟩
  | some v =>
    cases v with
    | null => exact .inl ⟨(Option.some.inj h).symm, .inr rfl⟩
    | _ =>
      obtain ⟨a, ha, rfl⟩ := Option.map_eq_some_iff.mp h
      refine .inr ⟨_, a, ?_, rfl, ha, rfl⟩
      exact nofun

theorem proper_of_decode {v : Json} (h : decode outer v = some d) : d.Proper outer := by
  cases v with
  | object fields =>
    obtain ⟨⟨-, -, hhint⟩, hparams⟩ := decode_eq_some.mp h
    obtain ⟨field, -, hread⟩ := Option.bind_eq_some_iff.mp hhint
    obtain ⟨hkeys, others, hothers, hvalues⟩ := table?_eq_some hparams
    obtain rfl := Json.object.inj hothers
    refine ⟨fun hint heq => ?_, hkeys, fun e he => ?_⟩
    · rcases nullableField hread with ⟨hnone, -⟩ | ⟨v, w, hv, -, hvalue, hw⟩
      · exact absurd (heq.symm.trans hnone) nofun
      · obtain rfl := Option.some.inj (heq.symm.trans hw)
        obtain rfl := value?_eq_some hvalue
        exact ⟨hv, hvalue⟩
    · obtain ⟨w, hmem, hvalue⟩ := hvalues e he
      obtain rfl := value?_eq_some hvalue
      have hother := List.of_mem_filter hmem
      refine ⟨fun hown => ?_, hvalue⟩
      rw [List.contains_iff_mem.mpr hown] at hother
      cases hother
  | _ => cases h

theorem Proper.notMem_keys (h : d.Proper outer) {name : String} (hown : name ∈ ownFields) :
    name ∉ d.params.keys := by
  intro hkey
  obtain ⟨e, he, rfl⟩ := List.mem_map.mp hkey
  exact (h.params e he).1 hown

theorem Proper.lookup_params (h : d.Proper outer) {name : String} (hown : name ∈ ownFields) :
    Table.lookup name d.params.entries = none := by
  rw [← Option.not_isSome_iff_eq_none, Table.isSome_lookup]
  exact h.notMem_keys hown

theorem Proper.nodup_written (h : d.Proper outer) : (d.written.map Prod.fst).Nodup := by
  have htype := h.notMem_keys (show "type" ∈ ownFields by decide)
  have hcomment := h.notMem_keys (show "comment" ∈ ownFields by decide)
  have hhint := h.notMem_keys (show "hint" ∈ ownFields by decide)
  have hkeys := h.keys
  obtain ⟨type, comment, hint, params⟩ := d
  rw [Table.keys] at htype hcomment hhint hkeys
  cases comment <;> cases hint <;> simp [written, optionalField, *]

/-- The fields that a definition has stand before its parameters, each at most once. -/
theorem Proper.lookup_written (h : d.Proper outer) :
    Table.lookup "type" d.written = some (.string d.type) ∧
      Table.lookup "comment" d.written = d.comment.map .string ∧ Table.lookup "hint" d.written = d.hint := by
  have hcomment := h.lookup_params (show "comment" ∈ ownFields by decide)
  have hhint := h.lookup_params (show "hint" ∈ ownFields by decide)
  obtain ⟨type, comment, hint, params⟩ := d
  cases comment <;> cases hint <;> simp [written, optionalField, Table.lookup, *]

theorem Proper.filter_written (h : d.Proper outer) :
    d.written.filter (fun f => !ownFields.contains f.1) = d.params.entries := by
  have hkeep : d.params.entries.filter (fun f => !ownFields.contains f.1) = d.params.entries :=
    List.filter_eq_self.mpr fun e he => by simpa using (h.params e he).1
  rw [written, List.filter_cons_of_neg (by simp [ownFields]), List.filter_append, List.filter_append, hkeep]
  cases d.comment <;> cases d.hint <;> rfl

/-- **A proper definition** is read from what is written of it. -/
theorem Proper.decode_encode (h : d.Proper outer) : decode outer d.encode = some d := by
  obtain ⟨htype, hcomment, hhint⟩ := h.lookup_written
  have hsingle := single?_of_nodup h.nodup_written
  rw [encode_eq, decode_eq_some, h.filter_written, hsingle, hsingle, hsingle, htype, hcomment, hhint]
  refine ⟨⟨rfl, ?_, ?_⟩, ?_⟩
  · cases d.comment <;> rfl
  · cases hvalue : d.hint with
    | none => rfl
    | some v =>
      obtain ⟨hnull, hread⟩ := h.hint v hvalue
      rw [Option.bind_some, withDefault?, nullable?_of_ne_null hnull, hread, Option.map_some]
  · have hparams : ofTable id d.params = .object d.params.entries := by simp [ofTable]
    rw [← hparams]
    exact table?_ofTable h.keys fun e he => (h.params e he).2

theorem roundTrips (outer : Nat) : RoundTrips (decode outer) encode :=
  fun _ _ h => (proper_of_decode h).decode_encode

/-! ### Nothing leaks between fields and parameters -/

end MixerDefinition

/-! ## Configurations -/

theorem MixerEntry.roundTrips (outer : Nat) : RoundTrips (decode outer) encode := by
  intro v entry h
  unfold decode at h
  split at h
  · cases h
    rfl
  · obtain ⟨d, hd, rfl⟩ := Option.map_eq_some_iff.mp h
    exact congrArg (Option.map definition) (MixerDefinition.roundTrips outer _ d hd)

end SoundDesk
