import SoundDesk.Json.Decode
import SoundDesk.OsPath
import Mathlib.Data.List.Induction
import Mathlib.Data.List.Nodup

/-!
# Proofs/RoundTrips — what was read is read again from what is written of it

    any spelling ──decode──▸ data ──encode──▸ one spelling ──decode──▸ the same data

Many values read as the same data: a record may stand as an array, a field may be missing, a constant may be an
object.  One of them is written, and it has to read as that data again (`Json.RoundTrips`).  The law is about
data that was read, for only such data is sure to have a spelling: numbers in range, tables with distinct names.
It passes from parts to records, lists and tables.
-/

namespace SoundDesk

/-! ## Tables and lists of pairs -/

namespace Table

variable {κ ν : Type} [DecidableEq κ] {entries pairs : List (κ × ν)} {k : κ} {v : ν}

/-- Under distinct keys, a lookup finds every pair. -/
theorem lookup_eq_some_iff (h : (entries.map Prod.fst).Nodup) : lookup k entries = some v ↔ (k, v) ∈ entries := by
  induction entries with
  | nil => simp [lookup]
  | cons e rest ih =>
    obtain ⟨j, w⟩ := e
    obtain ⟨hj, hrest⟩ := List.nodup_cons.mp h
    rw [lookup, List.mem_cons, Prod.mk.injEq]
    split
    · next heq =>
      have hnot : (k, v) ∉ rest := fun hmem => hj (List.mem_map.mpr ⟨(k, v), hmem, heq.symm⟩)
      simp [heq, hnot, eq_comm]
    · next hne => simp [ih hrest, Ne.symm hne]

theorem mem_replace {e : κ × ν} (h : e ∈ replace k v entries) : e = (k, v) ∨ e ∈ entries := by
  induction entries with
  | nil => exact .inl (List.mem_singleton.mp h)
  | cons f rest ih => grind [replace]

/-- A table holds nothing but the pairs that it is made of, under distinct keys. -/
theorem ofList_sound (pairs : List (κ × ν)) :
    (∀ e ∈ (ofList pairs).entries, e ∈ pairs) ∧ (ofList pairs).keys.Nodup := by
  induction pairs using List.reverseRecOn with
  | nil => exact ⟨nofun, List.nodup_nil⟩
  | append_singleton pairs p ih =>
    have hlast : ofList (pairs ++ [p]) = (ofList pairs).insert p.1 p.2 := by
      rw [ofList, List.foldl_append]
      rfl
    rw [hlast]
    refine ⟨fun e he => ?_, nodup_keys_insert ih.2 p.1 p.2⟩
    rcases mem_replace he with rfl | hold
    · exact List.mem_append_right pairs List.mem_cons_self
    · exact List.mem_append_left [p] (ih.1 e hold)

/-- Pairs with distinct keys are the table that is made of them. -/
theorem ofList_of_nodup (h : (pairs.map Prod.fst).Nodup) : ofList pairs = ⟨pairs⟩ := by
  induction pairs using List.reverseRecOn with
  | nil => rfl
  | append_singleton pairs p ih =>
    rw [List.map_append, List.map_singleton] at h
    obtain ⟨hfront, -, hfresh⟩ := List.nodup_append.mp h
    have hnew : ∀ l : List (κ × ν), p.1 ∉ l.map Prod.fst → replace p.1 p.2 l = l ++ [p] := by
      intro l hl
      induction l with
      | nil => rfl
      | cons e rest ihl => grind [replace]
    rw [ofList, List.foldl_append]
    change (ofList pairs).insert p.1 p.2 = _
    rw [ih hfront, insert, hnew pairs fun hmem => hfresh _ hmem _ (List.mem_singleton_self _) rfl]

end Table

namespace Json

variable {α : Type} {decode : Json → Option α} {encode : α → Json} {v : Json} {a : α}

/-! ## The law -/

/-- **What was read round-trips**: the value that is written of it reads as the same. -/
def RoundTrips (decode : Json → Option α) (encode : α → Json) : Prop :=
  ∀ v a, decode v = some a → decode (encode a) = some a

/-- **What was read can be written** and round-trips, where not all data has a value. -/
def Rereads (decode : Json → Option α) (encode : α → Option Json) : Prop :=
  ∀ v a, decode v = some a → ∃ w, encode a = some w ∧ decode w = some a

/-- Where all data has a value, to reread is to round-trip. -/
theorem rereads_some_iff : Rereads decode (fun a => some (encode a)) ↔ RoundTrips decode encode := by
  constructor
  · intro h v a ha
    obtain ⟨_, ⟨⟩, hread⟩ := h v a ha
    exact hread
  · exact fun h v a ha => ⟨_, rfl, h v a ha⟩

/-! ### Numbers, truth values and texts -/

theorem roundTrips_nat32 : RoundTrips nat32? fun n => .int n := by
  intro v n h
  cases v with
  | int i =>
    simp only [nat32?] at h ⊢
    split at h
    · next hi =>
      obtain rfl := Option.some.inj h
      rw [Int.toNat_of_nonneg hi.1, if_pos hi]
    · cases h
  | _ => cases h

theorem lt_of_nat32? {n : Nat} (h : nat32? v = some n) : n < UInt32.size := by
  cases v with
  | int i =>
    simp only [nat32?] at h
    split at h
    · next hi =>
      obtain rfl := Option.some.inj h
      exact (Int.toNat_lt hi.1).mpr hi.2
    · cases h
  | _ => cases h

theorem roundTrips_int64 : RoundTrips int64? ofInt64 := by
  intro v n h
  have hrange : -(2 ^ 63) ≤ n.toInt ∧ n.toInt < 2 ^ 63 := ⟨n.le_toInt, n.toInt_lt⟩
  simp only [ofInt64, int64?, Int64.ofInt_toInt]
  exact if_pos hrange

theorem roundTrips_bool : RoundTrips bool? bool := fun _ _ _ => rfl

theorem roundTrips_string : RoundTrips asString? string := fun _ _ _ => rfl

/-- A value that is kept is written as it is. -/
theorem value?_eq_some {outer : Nat} {w : Json} (h : value? outer v = some w) : w = v := by
  unfold value? at h
  split at h
  · exact (Option.some.inj h).symm
  · cases h

/-- **A constant** is written by its name, and was read from that name too. -/
theorem roundTrips_constant {all : List α} {name : α → String} :
    RoundTrips (constant? (all.map fun a => (name a, a))) fun a => .string (name a) := by
  have hname : ∀ {s a}, (all.map fun a => (name a, a)).lookup s = some a →
      (all.map fun a => (name a, a)).lookup (name a) = some a := by
    intro s a h
    obtain ⟨front, back, heq, -⟩ := List.lookup_eq_some_iff.mp h
    have hmem : (s, a) ∈ all.map fun a => (name a, a) := by simp [heq]
    obtain ⟨b, -, hb⟩ := List.mem_map.mp hmem
    obtain ⟨rfl, rfl⟩ := Prod.mk.inj hb
    exact h
  intro v a h
  unfold constant? at h
  split at h
  · exact hname h
  · exact hname h
  · cases h

/-! ### Parts that may be missing, lists and tables -/

theorem nullable?_of_ne_null (h : v ≠ .null) : nullable? decode v = (decode v).map some := by
  cases v <;> first | rfl | exact absurd rfl h

theorem Rereads.nullable {encode : α → Option Json} (h : Rereads decode encode)
    (hnull : ∀ a, encode a ≠ some .null) : Rereads (nullable? decode) (ofOption? encode) := by
  intro v o ho
  cases o with
  | none => exact ⟨.null, rfl, rfl⟩
  | some a =>
    have hread : decode v = some a := by
      cases v with
      | null => cases ho
      | _ =>
        obtain ⟨b, hb, hab⟩ := Option.map_eq_some_iff.mp ho
        rwa [← Option.some.inj hab]
    obtain ⟨w, hw, hdecode⟩ := h v a hread
    refine ⟨w, hw, ?_⟩
    rw [nullable?_of_ne_null fun hn => hnull a (hn ▸ hw), hdecode, Option.map_some]

theorem RoundTrips.nullable (h : RoundTrips decode encode) (hnull : ∀ a, encode a ≠ .null) :
    RoundTrips (nullable? decode) (ofOption encode) := by
  have hwritten : (fun o => some (ofOption encode o)) = ofOption? fun a => some (encode a) := by
    funext o
    cases o <;> rfl
  rw [← rereads_some_iff, hwritten]
  exact (rereads_some_iff.mpr h).nullable fun a ha => hnull a (Option.some.inj ha)

/-- A list is read item by item. -/
theorem mapM_eq_some {β γ : Type} {f : β → Option γ} {l : List β} {l' : List γ} :
    l.mapM f = some l' ↔ l.map f = l'.map some := by
  induction l generalizing l' with
  | nil => cases l' <;> simp
  | cons b l ih =>
    simp only [List.mapM_cons, Option.bind_eq_bind, Option.bind_eq_some_iff, ih]
    cases l' with
    | nil => simp
    | cons c l' => simp [eq_comm]

theorem mem_of_mapM {β γ : Type} {f : β → Option γ} {l : List β} {l' : List γ} (h : l.mapM f = some l') {c : γ}
    (hc : c ∈ l') : ∃ b ∈ l, f b = some c := by
  have hmem := List.mem_map_of_mem (f := some) hc
  rwa [← mapM_eq_some.mp h, List.mem_map] at hmem

theorem RoundTrips.list (h : RoundTrips decode encode) :
    RoundTrips (list? decode) fun l => .array (l.map encode) := by
  intro v l hl
  cases v with
  | array items =>
    refine mapM_eq_some.mpr ?_
    rw [List.map_map]
    refine List.map_congr_left fun a ha => ?_
    obtain ⟨item, -, hitem⟩ := mem_of_mapM hl ha
    exact h item a hitem
  | _ => cases hl

/-- A table is read from an object, whose fields give its values under distinct names. -/
theorem table?_eq_some {t : Table String α} (h : table? decode v = some t) :
    t.keys.Nodup ∧ ∃ fields, v = .object fields ∧
      ∀ e ∈ t.entries, ∃ w, (e.1, w) ∈ fields ∧ decode w = some e.2 := by
  cases v with
  | object fields =>
    obtain ⟨pairs, hpairs, rfl⟩ := Option.map_eq_some_iff.mp h
    obtain ⟨hmem, hnodup⟩ := Table.ofList_sound pairs
    refine ⟨hnodup, fields, rfl, fun e he => ?_⟩
    obtain ⟨f, hf, hread⟩ := mem_of_mapM hpairs (hmem e he)
    obtain ⟨a, ha, rfl⟩ := Option.map_eq_some_iff.mp hread
    exact ⟨f.2, hf, ha⟩
  | _ => cases h

/-- Values under distinct names are read as they are written. -/
theorem table?_ofTable {t : Table String α} (hkeys : t.keys.Nodup)
    (hread : ∀ e ∈ t.entries, decode (encode e.2) = some e.2) : table? decode (ofTable encode t) = some t := by
  have hpairs : (t.entries.map fun e => (e.1, encode e.2)).mapM (fun f => (decode f.2).map (f.1, ·)) =
      some t.entries := by
    refine mapM_eq_some.mpr ?_
    rw [List.map_map]
    refine List.map_congr_left fun e he => ?_
    simp [hread e he]
  rw [ofTable, table?, hpairs, Option.map_some, Table.ofList_of_nodup hkeys]

theorem RoundTrips.table (h : RoundTrips decode encode) : RoundTrips (table? decode) (ofTable encode) := by
  intro v t ht
  obtain ⟨hkeys, fields, rfl, hvalues⟩ := table?_eq_some ht
  refine table?_ofTable hkeys fun e he => ?_
  obtain ⟨w, -, hw⟩ := hvalues e he
  exact h w e.2 hw

theorem Rereads.table {encode : α → Option Json} (h : Rereads decode encode) :
    Rereads (table? decode) (ofTable? encode) := by
  intro v t ht
  obtain ⟨hkeys, fields, rfl, hvalues⟩ := table?_eq_some ht
  -- what the values are written as, chosen for all of them, makes this a table of which all can be written
  have hwritten : ∀ e ∈ t.entries, ∃ w, encode e.2 = some w ∧ decode w = some e.2 := by
    intro e he
    obtain ⟨v, -, hv⟩ := hvalues e he
    exact h v e.2 hv
  have hsome : ∀ e ∈ t.entries, encode e.2 = some ((encode e.2).getD .null) := by
    intro e he
    obtain ⟨w, hw, -⟩ := hwritten e he
    rw [hw, Option.getD_some]
  refine ⟨ofTable (fun a => (encode a).getD .null) t, ?_, table?_ofTable hkeys fun e he => ?_⟩
  · rw [ofTable?, mapM_eq_some.mpr, Option.map_some, ofTable]
    rw [List.map_map]
    refine List.map_congr_left fun e he => ?_
    rw [hsome e he]
    rfl
  · obtain ⟨w, hw, hdecode⟩ := hwritten e he
    rw [hw, Option.getD_some, hdecode]

/-! ### Fields and records -/

/-- A field that was read, and is written now, is read again. -/
theorem RoundTrips.required_bind (h : RoundTrips decode encode) {field : Option Json}
    (hfield : required? decode field = some a) {β : Type} (k : α → Option β) :
    (required? decode (some (encode a)) >>= k) = k a := by
  obtain ⟨v, -, hv⟩ := Option.bind_eq_some_iff.mp hfield
  rw [required?, Option.bind_some, h v a hv, Option.bind_eq_bind, Option.bind_some]

theorem RoundTrips.withDefault_bind (h : RoundTrips decode encode) {default : α} {field : Option Json}
    (hfield : withDefault? default decode field = some a) (hdefault : decode (encode default) = some default)
    {β : Type} (k : α → Option β) : (withDefault? default decode (some (encode a)) >>= k) = k a := by
  have hread : decode (encode a) = some a := by
    cases field with
    | none => exact Option.some.inj hfield ▸ hdefault
    | some v => exact h v a hfield
  rw [withDefault?, hread, Option.bind_eq_bind, Option.bind_some]

/-- Where names are distinct, a field is there or not, but never twice. -/
theorem single?_of_nodup {fields : List (String × Json)} (h : (fields.map Prod.fst).Nodup) (name : String) :
    single? fields name = some (Table.lookup name fields) := by
  have hvalues : valuesOf fields name = (Table.lookup name fields).toList := by
    induction fields with
    | nil => rfl
    | cons f rest ih =>
      obtain ⟨hfresh, hrest⟩ := List.nodup_cons.mp h
      have hih := ih hrest
      rw [valuesOf] at hih
      rw [valuesOf, List.filter_cons, Table.lookup]
      by_cases hname : f.1 = name
      · have hnone : Table.lookup name rest = none := by
          rw [← Option.not_isSome_iff_eq_none, Table.isSome_lookup]
          exact hname ▸ hfresh
        rw [hnone] at hih
        simp [hname, hih]
      · simp [hname, hih]
  rw [single?, hvalues]
  cases Table.lookup name fields <;> rfl

theorem map_lookup_zip {names : List String} (h : names.Nodup) {values : List Json}
    (hlength : values.length = names.length) :
    names.map (Table.lookup · (names.zip values)) = values.map some := by
  induction names generalizing values with
  | nil => rw [List.eq_nil_of_length_eq_zero hlength]; rfl
  | cons name names ih =>
    obtain ⟨hfresh, hrest⟩ := List.nodup_cons.mp h
    cases values with
    | nil => cases hlength
    | cons v values =>
      have htail : names.map (Table.lookup · ((name, v) :: names.zip values)) =
          names.map (Table.lookup · (names.zip values)) := by
        refine List.map_congr_left fun other hother => ?_
        have hne : name ≠ other := fun heq => hfresh (heq ▸ hother)
        simp [Table.lookup, hne]
      rw [List.zip_cons_cons, List.map_cons, htail, ih hrest (Nat.succ.inj hlength), Table.lookup, if_pos rfl,
        List.map_cons]

/-- **A record that is written** with every field is read field by field. -/
theorem record?_object {names : List String} (h : names.Nodup) {values : List Json}
    (hlength : values.length = names.length) :
    record? names (.object (names.zip values)) = some (values.map some) := by
  have hnames : (names.zip values).map Prod.fst = names := List.map_fst_zip (Nat.le_of_eq hlength.symm)
  rw [record?, mapM_eq_some, ← map_lookup_zip h hlength, List.map_map]
  exact List.map_congr_left fun name _ => single?_of_nodup (hnames.symm ▸ h) name

/-- A record rereads if, of whatever fields it was built, it is written with fields of which it is built again. -/
theorem rereads_fields (names : List String) {read : Json → Option (List (Option Json))}
    (hread : ∀ {values : List Json}, values.length = names.length →
      read (.object (names.zip values)) = some (values.map some))
    {build : List (Option Json) → Option α} {encode : α → Option Json}
    (hwritten : ∀ found a, build found = some a → ∃ values : List Json, values.length = names.length ∧
      encode a = some (.object (names.zip values)) ∧ build (values.map some) = some a) :
    Rereads (fun v => (read v).bind build) encode := by
  intro v a ha
  obtain ⟨found, -, hfound⟩ := Option.bind_eq_some_iff.mp ha
  obtain ⟨values, hlength, hencode, hbuild⟩ := hwritten found a hfound
  exact ⟨_, hencode, Option.bind_eq_some_iff.mpr ⟨_, hread hlength, hbuild⟩⟩

/-- **A record round-trips** if its fields do: `build` makes the data of the fields that were found, and `values`
are the fields that are written. -/
theorem roundTrips_fields (names : List String) {read : Json → Option (List (Option Json))}
    (hread : ∀ {values : List Json}, values.length = names.length →
      read (.object (names.zip values)) = some (values.map some))
    {build : List (Option Json) → Option α} (values : α → List Json)
    (hlength : ∀ a, (values a).length = names.length)
    (hbuild : ∀ found a, build found = some a → build ((values a).map some) = some a) :
    RoundTrips (fun v => (read v).bind build) fun a => .object (names.zip (values a)) :=
  rereads_some_iff.mp (rereads_fields names hread fun found a h => ⟨values a, hlength a, rfl, hbuild found a h⟩)

end Json

end SoundDesk
