-- SUMMARY: JSON forms that lose nothing: what is written is read back, for texts, numbers, kinds, lists, maps and fields of records.
import SourceChunks.Json

/-!
# Lossless JSON forms

A pair of a writer and a reader loses nothing if the reader gives back every value that the type
can hold, and gives no other value. Such pairs are built up: texts, numbers in a range, kinds by
name, lists, maps with ascending keys. A record puts each of its fields under a key, or leaves it
out, and finds it again under that key.
-/

namespace SourceChunks.Json

/-! ## Maps -/

variable {α : Type}

/-- The keys of a map ascend. -/
def Ascending (pairs : List (String × α)) : Prop :=
  pairs.Pairwise (·.1 < ·.1)

theorem mem_insertPair {key : String} {value : α} {pairs : List (String × α)} {pair : String × α}
    (h : pair ∈ insertPair key value pairs) : pair = (key, value) ∨ pair ∈ pairs := by
  induction pairs with
  | nil => exact .inl (List.mem_singleton.1 h)
  | cons first rest ih =>
      unfold insertPair at h
      split at h
      · exact List.mem_cons.1 h
      · split at h
        · rcases List.mem_cons.1 h with h | h
          · exact .inl h
          · exact .inr (List.mem_cons_of_mem _ h)
        · rcases List.mem_cons.1 h with rfl | h
          · exact .inr List.mem_cons_self
          · exact (ih h).imp_right (List.mem_cons_of_mem _)

theorem ascending_insertPair {pairs : List (String × α)} (h : Ascending pairs) (key : String)
    (value : α) : Ascending (insertPair key value pairs) := by
  induction pairs with
  | nil => exact List.pairwise_singleton _ _
  | cons first rest ih =>
      obtain ⟨hfirst, hrest⟩ := List.pairwise_cons.1 h
      unfold insertPair
      split
      · next hlt =>
        refine List.pairwise_cons.2 ⟨?_, h⟩
        intro pair hpair
        rcases List.mem_cons.1 hpair with rfl | hpair
        · exact hlt
        · exact String.lt_trans hlt (hfirst pair hpair)
      · next hnlt =>
        split
        · next heq =>
          refine List.pairwise_cons.2 ⟨?_, hrest⟩
          intro pair hpair
          exact heq ▸ hfirst pair hpair
        · next hne =>
          refine List.pairwise_cons.2 ⟨?_, ih hrest⟩
          intro pair hpair
          rcases mem_insertPair hpair with rfl | hpair
          · exact Std.lt_of_le_of_ne (String.not_lt.1 hnlt) (Ne.symm hne)
          · exact hfirst pair hpair

theorem ascending_byKey (members : List (String × α)) : Ascending (byKey members) := by
  suffices h : ∀ pairs : List (String × α), Ascending pairs → Ascending
      (members.foldl (fun pairs (key, value) => insertPair key value pairs) pairs) from
    h [] .nil
  induction members with
  | nil => exact fun pairs hpairs => hpairs
  | cons member members ih =>
      intro pairs hpairs
      exact ih _ (ascending_insertPair hpairs member.1 member.2)

/-- A key behind all others goes to the end. -/
theorem insertPair_of_forall_lt {pairs : List (String × α)} {key : String} {value : α}
    (h : ∀ pair ∈ pairs, pair.1 < key) : insertPair key value pairs = pairs ++ [(key, value)] := by
  induction pairs with
  | nil => rfl
  | cons first rest ih =>
      have hlt : first.1 < key := h first List.mem_cons_self
      have hrest := ih fun pair hpair => h pair (List.mem_cons_of_mem _ hpair)
      unfold insertPair
      rw [if_neg (String.lt_asymm hlt), if_neg (fun heq => String.lt_irrefl _ (heq ▸ hlt)), hrest]
      rfl

/-- Members with ascending keys are a map already. -/
theorem byKey_of_ascending {members : List (String × α)} (h : Ascending members) :
    byKey members = members := by
  suffices hfold : ∀ pairs : List (String × α), Ascending (pairs ++ members) →
      members.foldl (fun pairs (key, value) => insertPair key value pairs) pairs =
        pairs ++ members from
    hfold [] h
  clear h
  induction members with
  | nil => exact fun pairs _ => (List.append_nil pairs).symm
  | cons member members ih =>
      obtain ⟨key, value⟩ := member
      intro pairs hpairs
      have hlast : ∀ pair ∈ pairs, pair.1 < key := by
        intro pair hpair
        exact (List.pairwise_append.1 hpairs).2.2 pair hpair (key, value) List.mem_cons_self
      rw [List.append_cons] at hpairs ⊢
      rw [List.foldl_cons]
      dsimp only
      rw [insertPair_of_forall_lt hlast]
      exact ih _ hpairs

/-! ## Lossless pairs of writer and reader -/

/-- What `write` writes of a value that `Fits`, `read` reads back, and it reads no value that does
not fit. Nothing is written as null, which stands for absence. -/
structure Lossless (Fits : α → Prop) (write : α → Json) (read : Json → Option α) : Prop where
  read_write : ∀ a, Fits a → read (write a) = some a
  fits : ∀ json a, read json = some a → Fits a
  ne_null : ∀ a, write a ≠ null

/-- What was read once is read again from what is written of it. -/
theorem Lossless.read_write_of_read {Fits : α → Prop} {write : α → Json} {read : Json → Option α}
    (h : Lossless Fits write read) {json : Json} {a : α} (hread : read json = some a) :
    read (write a) = some a :=
  h.read_write a (h.fits json a hread)

theorem lossless_text : Lossless (fun _ => True) string toText? where
  read_write _ _ := rfl
  fits _ _ _ := trivial
  ne_null _ := nofun

theorem lossless_nat (limit : Nat) : Lossless (· ≤ limit) ofNat (toNat? limit) where
  read_write n hn := by
    have hrange : 0 ≤ (n : Int) ∧ (n : Int) ≤ limit := ⟨Int.natCast_nonneg n, Int.ofNat_le.2 hn⟩
    simp only [ofNat, toNat?, if_pos hrange, Int.toNat_natCast]
  fits json n h := by
    unfold toNat? at h
    split at h
    · split at h
      · cases h
        omega
      · cases h
    · cases h
  ne_null _ := nofun

/-- Floating-point numbers are written as they are. -/
theorem lossless_real : Lossless (fun _ => True) real toReal? where
  read_write _ _ := rfl
  fits _ _ _ := trivial
  ne_null _ := nofun

/-- Kinds are told apart by their names. -/
theorem lossless_tag {name : α → String} {ofName? : String → Option α}
    (h : ∀ a, ofName? (name a) = some a) :
    Lossless (fun _ => True) (fun a => string (name a)) fun json => json.toTag?.bind ofName? where
  read_write a _ := h a
  fits _ _ _ := trivial
  ne_null _ := nofun

theorem mapM_map_eq_some {β : Type} {items : List α} {write : α → β} {read : β → Option α}
    (h : ∀ a ∈ items, read (write a) = some a) : (items.map write).mapM read = some items := by
  induction items with
  | nil => rfl
  | cons a items ih =>
      have hrest := ih fun b hb => h b (List.mem_cons_of_mem _ hb)
      simp [h a List.mem_cons_self, hrest]

theorem exists_of_mem_mapM {β : Type} {items : List α} {read : α → Option β} {results : List β}
    (h : items.mapM read = some results) : ∀ b ∈ results, ∃ a ∈ items, read a = some b := by
  induction items generalizing results with
  | nil =>
      cases h
      simp
  | cons a items ih =>
      rw [List.mapM_cons] at h
      obtain ⟨first, hfirst, h⟩ := Option.bind_eq_some_iff.1 h
      obtain ⟨rest, hrest, h⟩ := Option.bind_eq_some_iff.1 h
      cases h
      intro b hb
      rcases List.mem_cons.1 hb with rfl | hb
      · exact ⟨a, List.mem_cons_self, hfirst⟩
      · obtain ⟨item, hitem, hread⟩ := ih hrest b hb
        exact ⟨item, List.mem_cons_of_mem _ hitem, hread⟩

namespace Lossless

variable {Fits : α → Prop} {write : α → Json} {read : Json → Option α}

theorem list (h : Lossless Fits write read) :
    Lossless (fun items => ∀ a ∈ items, Fits a) (fun items => array (items.map write))
      (toList? read) where
  read_write items hitems := mapM_map_eq_some fun a ha => h.read_write a (hitems a ha)
  fits json items hread := by
    unfold toList? at hread
    split at hread
    · intro a ha
      obtain ⟨item, -, hitem⟩ := exists_of_mem_mapM hread a ha
      exact h.fits item a hitem
    · cases hread
  ne_null _ := nofun

/-- Writing under the same keys keeps them in order. -/
theorem ascending_map {β : Type} {pairs : List (String × α)} (h : Ascending pairs) (f : α → β) :
    Ascending (pairs.map fun (key, a) => (key, f a)) :=
  List.pairwise_map.2 h

/-- Reading values under their keys keeps the keys. -/
theorem keys_of_mapM {β : Type} {pairs : List (String × β)} {read : β → Option α}
    {results : List (String × α)}
    (h : (pairs.mapM fun (key, b) => (read b).map (key, ·)) = some results) :
    results.map (·.1) = pairs.map (·.1) := by
  induction pairs generalizing results with
  | nil =>
      cases h
      rfl
  | cons pair pairs ih =>
      rw [List.mapM_cons] at h
      obtain ⟨first, hfirst, h⟩ := Option.bind_eq_some_iff.1 h
      obtain ⟨rest, hrest, h⟩ := Option.bind_eq_some_iff.1 h
      obtain ⟨a, -, rfl⟩ := Option.map_eq_some_iff.1 hfirst
      cases h
      rw [List.map_cons, List.map_cons, ih hrest]

theorem map (h : Lossless Fits write read) :
    Lossless (fun pairs => Ascending pairs ∧ ∀ pair ∈ pairs, Fits pair.2)
      (fun pairs => object (pairs.map fun (key, a) => (key, write a))) (toMap? read) where
  read_write pairs hpairs := by
    unfold toMap?
    dsimp only
    rw [byKey_of_ascending (ascending_map hpairs.1 write)]
    refine mapM_map_eq_some ?_
    rintro ⟨key, a⟩ hpair
    dsimp only
    rw [h.read_write a (hpairs.2 _ hpair), Option.map_some]
  fits json pairs hread := by
    unfold toMap? at hread
    split at hread
    · next members =>
      constructor
      · have hkeys := keys_of_mapM hread
        have hascending := List.pairwise_map.2 (ascending_byKey members)
        exact List.pairwise_map.1 (hkeys ▸ hascending)
      · intro pair hpair
        obtain ⟨member, -, hmember⟩ := exists_of_mem_mapM hread pair hpair
        obtain ⟨a, ha, rfl⟩ := Option.map_eq_some_iff.1 hmember
        exact h.fits _ a ha
    · cases hread
  ne_null _ := nofun

/-! ## Fields of records -/

variable {record : String → Option Json} {key : String} {a : α} {value : Option α}

theorem required (h : Lossless Fits write read) (hrecord : record key = some (write a))
    (hfits : Fits a) : Json.required record key read = some a := by
  rw [Json.required, hrecord, Option.bind_some, h.read_write a hfits]

theorem fits_required (h : Lossless Fits write read)
    (hread : Json.required record key read = some a) : Fits a := by
  obtain ⟨json, -, hread⟩ := Option.bind_eq_some_iff.1 hread
  exact h.fits json a hread

/-- A field that may be absent is found again, whether absence is written as null or not at all. -/
theorem optional (h : Lossless Fits write read)
    (hrecord : record key = value.map write ∨ record key = some ((value.map write).getD null))
    (hfits : ∀ a ∈ value, Fits a) : Json.optional record key read = some value := by
  unfold Json.optional
  cases value with
  | none => rcases hrecord with hrecord | hrecord <;> rw [hrecord] <;> rfl
  | some a =>
      have hrecord : record key = some (write a) := hrecord.elim id id
      rw [hrecord]
      split
      · next hnone => cases hnone
      · next hnull => exact absurd (Option.some.inj hnull) (h.ne_null a)
      · next json _ hjson =>
        cases hjson
        rw [h.read_write a (hfits a rfl), Option.map_some]

theorem fits_optional (h : Lossless Fits write read)
    (hread : Json.optional record key read = some value) : ∀ a ∈ value, Fits a := by
  intro a ha
  rw [Option.mem_def.1 ha] at hread
  unfold Json.optional at hread
  split at hread
  · cases hread
  · cases hread
  · obtain ⟨b, hread, hb⟩ := Option.map_eq_some_iff.1 hread
    cases hb
    exact h.fits _ a hread

end Lossless

/-! ## Records as objects -/

/-- Reading in steps gives a result if every step does. -/
theorem bind_eq_some_iff {β : Type} {first : Option α} {next : α → Option β} {b : β} :
    (first >>= next) = some b ↔ ∃ a, first = some a ∧ next a = some b :=
  Option.bind_eq_some_iff

/-- What a record holds under a key, where null is nothing. -/
def held (record : String → Option Json) (key : String) : Option Json :=
  match record key with
  | none | some null => none
  | some value => some value

theorem required_eq_held {read : Json → Option α} (hnull : read null = none)
    (record : String → Option Json) (key : String) :
    required record key read = (held record key).bind read := by
  unfold required held
  rcases record key with _ | value
  · rfl
  · cases value with
    | null => exact hnull
    | _ => rfl

theorem optional_eq_held (read : Json → Option α) (record : String → Option Json) (key : String) :
    optional record key read =
      (held record key).elim (some none) fun value => (read value).map some := by
  unfold optional held
  rcases record key with _ | value
  · rfl
  · cases value <;> rfl

/-- Two objects hold the same under some keys. Other keys do not count, and a key that is missing
is the same as one with null under it. -/
def SameUnder (fields : List String) (first second : List (String × Json)) : Prop :=
  ∀ key ∈ fields, held (fun key => (object first).get? key) key =
    held (fun key => (object second).get? key) key

/-- A reader of records: it accepts what has the fields, where `ReadFrom` says what it finds there,
and only what is held under the fields counts. -/
structure ReadsFields (fields : List String) (least : Nat) (read : Json → Option α)
    (ReadFrom : (String → Option Json) → α → Prop) : Prop where
  eq_some_iff : ∀ {json value}, read json = some value ↔
    ∃ record, json.toRecord? fields least = some record ∧ ReadFrom record value
  congr : ∀ {record record' value}, (∀ key ∈ fields, held record key = held record' key) →
    (ReadFrom record value ↔ ReadFrom record' value)

/-- Only what stands under the fields of an object is read. -/
theorem ReadsFields.read_object_congr {fields : List String} {least : Nat}
    {read : Json → Option α} {ReadFrom : (String → Option Json) → α → Prop}
    (h : ReadsFields fields least read ReadFrom) {first second : List (String × Json)}
    (hsame : SameUnder fields first second) : read (.object first) = read (.object second) := by
  refine Option.ext fun value => ?_
  simp only [h.eq_some_iff, toRecord?, Option.some.injEq, exists_eq_left', h.congr hsame]

/-- The members of a record some of whose fields may be absent: those that are there. -/
def present (cells : List (String × Option Json)) : List (String × Json) :=
  cells.filterMap fun (key, value) => value.map (key, ·)

theorem present_nil : present [] = [] := rfl

theorem present_cons_some (key : String) (json : Json) (cells : List (String × Option Json)) :
    present ((key, some json) :: cells) = (key, json) :: present cells := rfl

theorem present_cons_map (key : String) (write : α → Json) (value : Option α)
    (cells : List (String × Option Json)) :
    present ((key, value.map write) :: cells) = member? key write value ++ present cells := by
  cases value <;> rfl

theorem mem_present {cells : List (String × Option Json)} {member : String × Json}
    (h : member ∈ present cells) : (member.1, some member.2) ∈ cells := by
  obtain ⟨⟨key, value⟩, hcell, hvalue⟩ := List.mem_filterMap.1 h
  obtain ⟨json, rfl, rfl⟩ := Option.map_eq_some_iff.1 hvalue
  exact hcell

theorem keys_present (cells : List (String × Option Json)) :
    (present cells).map (·.1) = (cells.filter (·.2.isSome)).map (·.1) := by
  induction cells with
  | nil => rfl
  | cons cell cells ih =>
      obtain ⟨key, value⟩ := cell
      cases value with
      | none => simpa [present] using ih
      | some json => simpa [present] using ih

theorem get?_object_cons (key other : String) (json : Json) (members : List (String × Json)) :
    (object ((other, json) :: members)).get? key =
      ((object members).get? key).or (if other = key then some json else none) := by
  simp only [get?, List.reverse_cons, List.find?_append, Option.map_or]
  by_cases h : other = key <;> simp [h]

/-- A record with distinct keys holds under each key what the field says. -/
theorem get?_present {cells : List (String × Option Json)} (h : (cells.map (·.1)).Nodup)
    (key : String) : (object (present cells)).get? key = (cells.lookup key).join := by
  induction cells with
  | nil => rfl
  | cons cell cells ih =>
      obtain ⟨other, value⟩ := cell
      obtain ⟨hnew, hrest⟩ := List.nodup_cons.1 h
      have hrest := ih hrest
      by_cases hkey : key = other
      · subst hkey
        -- the key is not among the others
        have habsent : cells.lookup key = none := by
          rw [List.lookup_eq_none_iff]
          intro cell hcell
          rw [bne_iff_ne]
          rintro rfl
          exact hnew (List.mem_map.2 ⟨cell, hcell, rfl⟩)
        rw [habsent] at hrest
        rw [List.lookup_cons_self]
        cases value with
        | none => exact hrest
        | some json =>
            change (object ((key, json) :: present cells)).get? key = some json
            rw [get?_object_cons, hrest, if_pos rfl]
            rfl
      · rw [List.lookup_cons, beq_eq_false_iff_ne.2 hkey]
        cases value with
        | none => exact hrest
        | some json =>
            change (object ((other, json) :: present cells)).get? key = _
            rw [get?_object_cons, if_neg (Ne.symm hkey), Option.or_none, hrest]

/-- The reader of a record finds what the cells of the record say. -/
theorem toRecord?_present {cells : List (String × Option Json)} {fields : List String}
    (hkeys : cells.map (·.1) = fields) (hnodup : fields.Nodup) (least : Nat) :
    (object (present cells)).toRecord? fields least = some fun key => (cells.lookup key).join :=
  congrArg some (funext (get?_present (hkeys ▸ hnodup)))

end SourceChunks.Json
