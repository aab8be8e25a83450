import StepScope.Proofs.SnapshotForms
import StepScope.Proofs.StoragePanel
import StepScope.View

/-!
Storage panels of slots as they come. A later slot of the same key replaces an earlier one, and what is shown
is the table at the end: in whatever order it is gone through before its keys are sorted, and however the
keys and values are spelled where the slots are read from JSON, the panel is the same.
-/

namespace StepScope

namespace Snapshot

open Json

/-! Storage objects -/

/-- The member of an object writes a slot: its key, which may be spelled with escapes, is a numeral of the
slot's key in any base, and its value is a number or a numeral of the slot's value. -/
structure WritesSlot (depth : Nat) (e : Property) (slot : Word × Word) : Prop where
  key : ∃ name, e.Named name ∧ WordText.read? name = some slot.1
  value : Takes (fun _ => readWord depth) e.value slot.2

/-- The text is an object with these slots as its members, one after the other. -/
def WritesSlots (depth : Nat) (t : Text) (slots : List (Word × Word)) : Prop :=
  ∃ es, List.Forall₂ (WritesSlot depth) es slots ∧ Encloses .object (es.map Property.text) t

variable {depth : Nat} {slots : List (Word × Word)}

theorem WritesSlot.member {e : Property} {slot : Word × Word} (h : WritesSlot depth e slot) :
    (∃ name, e.Named name ∧ slotKey name = .ok slot.1) ∧ Takes (fun _ => readWord depth) e.value slot.2 := by
  obtain ⟨⟨name, hname, hkey⟩, hvalue⟩ := h
  refine ⟨⟨name, hname, ?_⟩, hvalue⟩
  rw [slotKey, hkey]

theorem WritesSlots.accepts {t : Text} (h : WritesSlots depth t slots) :
    Accepts (depth + 1) .storage t (copy { storage := Keyed.ofList slots } .storage) := by
  obtain ⟨es, hes, lead, gap, trail, hlead, hgap, htrail, rfl⟩ := h
  have hmembers := hes.imp fun _ _ h => h.member
  have hstorage : Takes (fun limit => readStorage limit (depth + 1))
      (lead ++ (Bracket.object.around gap (es.map Property.text) ++ trail)) (Keyed.ofList slots) := by
    apply takes_padded (tokenwise_readStorage (depth + 1)) hlead htrail
    intro limit hlimit
    rw [Bracket.around_append, List.length_cons] at hlimit
    have hread : readMembers slotKey (readWord depth) limit true
        (gap ++ (chain true (es.map Property.text) ++ Bracket.object.closing :: trail)) = .ok (slots, trail) :=
      readMembers_takes (tokenwise_readWord depth) hmembers true hgap trail (Nat.lt_of_succ_lt hlimit)
        (Nat.lt_of_succ_lt hlimit)
    rw [Bracket.around_append]
    change (readMembers slotKey (readWord depth) limit true _).bind _ = _
    rw [hread]
    rfl
  obtain ⟨u, hread, hend⟩ := hstorage
  refine ⟨u, ?_, hend⟩
  simp only [readField, hread]
  rfl

/-! Snapshots with a storage -/

/-- The text is a written form of a snapshot in which an object of these slots is the storage. Of the other
fields it is asked that they can be read. -/
inductive Stores (slots : List (Word × Word)) : Text → Prop
  | array {given : List (Field × Text)} {more : List Field} {storage t : Text}
      (hfields : given.map Prod.fst ++ more = Field.all)
      (hgiven : ∀ g ∈ given, ∃ a, Accepts (maxDepth - 1) g.1 g.2 a) (hstorage : (.storage, storage) ∈ given)
      (hslots : WritesSlots (maxDepth - 2) storage slots) (ht : Encloses .array (given.map Prod.snd) t) :
      Stores slots t
  | object {given : List (Field × Text)} {es : List Property} {storage t : Text} (hmembers : Members given es)
      (honce : (given.map Prod.fst).Nodup) (hgiven : ∀ g ∈ given, ∃ a, Accepts (maxDepth - 1) g.1 g.2 a)
      (hstorage : (.storage, storage) ∈ given) (hslots : WritesSlots (maxDepth - 2) storage slots)
      (ht : Encloses .object (es.map Property.text) t) : Stores slots t

theorem storage_foldl_copy (x y : Snapshot) {fields : List Field} (h : .storage ∈ fields) :
    (fields.foldl (fun y f => copy x f y) y).storage = x.storage := by
  have hkeeps : ∀ (y : Snapshot) (f : Field), y.storage = x.storage → (copy x f y).storage = x.storage := by
    intro y f hy
    cases f <;> first | rfl | exact hy
  have hall : ∀ (fields : List Field) (y : Snapshot), y.storage = x.storage →
      (fields.foldl (fun y f => copy x f y) y).storage = x.storage := by
    intro fields
    induction fields with
    | nil => exact fun _ hy => hy
    | cons f fields ih => exact fun y hy => ih _ (hkeeps y f hy)
  obtain ⟨front, back, rfl⟩ := List.append_of_mem h
  rw [List.foldl_append, List.foldl_cons]
  exact hall back _ rfl

theorem forall₂_given {P : Field → Text → Prop} {given : List (Field × Text)} :
    List.Forall₂ P (given.map Prod.fst) (given.map Prod.snd) ↔ ∀ g ∈ given, P g.1 g.2 := by
  rw [List.forall₂_map_left_iff, List.forall₂_map_right_iff, List.forall₂_same]

/-- Fields that can be read each on their own are those of one snapshot, and its storage is the table of the
slots. -/
theorem exists_storing {given : List (Field × Text)} {storage : Text} (honce : (given.map Prod.fst).Nodup)
    (hgiven : ∀ g ∈ given, ∃ a, Accepts (depth + 1) g.1 g.2 a) (hstorage : (.storage, storage) ∈ given)
    (hslots : WritesSlots depth storage slots) :
    ∃ x, (∀ g ∈ given, Accepts (depth + 1) g.1 g.2 (copy x g.1)) ∧ x.storage = Keyed.ofList slots := by
  obtain ⟨x, _, hvalues⟩ := exists_accepts honce (forall₂_given.2 hgiven)
  have hx := forall₂_given.1 hvalues
  exact ⟨x, hx, congrArg (fun a => (a {}).storage) ((hx _ hstorage).unique hslots.accepts)⟩

theorem Stores.ofJson {t : Text} (h : Stores slots t) :
    ∃ x, ofJson t = .ok x ∧ x.storage = Keyed.ofList slots := by
  have hshown : ∀ {given : List (Field × Text)} {storage : Text} (x : Snapshot), (.storage, storage) ∈ given →
      x.storage = Keyed.ofList slots →
      ((given.map Prod.fst).foldl (fun y f => copy x f y) {}).storage = Keyed.ofList slots := by
    intro given storage x hstorage hx
    rw [storage_foldl_copy x {} (List.mem_map_of_mem hstorage), hx]
  cases h with
  | @array given more storage _ hfields hgiven hstorage hslots ht =>
    have honce : (given.map Prod.fst ++ more).Nodup := hfields ▸ (by decide : Field.all.Nodup)
    obtain ⟨x, hx, hslots⟩ := exists_storing (List.nodup_append.1 honce).1 hgiven hstorage hslots
    exact ⟨_, holds_iff_ofJson.1 (holds_array hfields (forall₂_given.2 hx) ht), hshown x hstorage hslots⟩
  | object hmembers honce hgiven hstorage hslots ht =>
    obtain ⟨x, hx, hslots⟩ := exists_storing honce hgiven hstorage hslots
    exact ⟨_, holds_iff_ofJson.1 (holds_object hmembers honce hx ht), hshown x hstorage hslots⟩

theorem encloses_objectOf (es : List Property) : Encloses .object (es.map Property.text) (objectOf es) :=
  ⟨[], [], [], .nil, .nil, .nil, by simp [objectOf]⟩

/-- A snapshot with nothing but a storage, without blanks. -/
def storing (es : List Property) : Text := objectOf [.plain Field.storage.name (objectOf es)]

theorem stores_storing {slots : List (Word × Word)} {es : List Property}
    (h : List.Forall₂ (WritesSlot (maxDepth - 2)) es slots) : Stores slots (storing es) := by
  have hslots : WritesSlots (maxDepth - 2) (objectOf es) slots := ⟨es, h, encloses_objectOf es⟩
  refine .object (members_plain (fun _ => objectOf es) [.storage]) (List.nodup_singleton _) ?_
    (List.mem_singleton_self _) hslots (encloses_objectOf _)
  exact List.forall_mem_singleton.2 ⟨_, hslots.accepts⟩

theorem writesSlot_plain {name value : Text} {slot : Word × Word} (hplain : name.all Json.isPlain = true)
    (hkey : WordText.read? name = some slot.1) (hvalue : Takes (fun _ => readWord depth) value slot.2) :
    WritesSlot depth (.plain name value) slot :=
  ⟨⟨name, Property.named_plain (List.all_eq_true.1 hplain) value, hkey⟩, hvalue⟩

end Snapshot

namespace Renderer

open Snapshot (Stores storing stores_storing writesSlot_plain)
open Keyed (Enumerates Last)

/-- In whatever order a table is gone through, sorting its entries gives them as they stand in the table. -/
theorem sortedSlots_of_perm (r : Renderer) {order : List (Word × Word)} {slots : Keyed Word Word}
    (h : order.Perm slots.entries) : r.sortedSlots order = r.storage slots := by
  have hsorted := @List.pairwise_mergeSort _ (fun e f : Word × Word => e.1.toNat ≤ f.1.toNat)
    (fun _ _ _ hef hfg => decide_eq_true (Nat.le_trans (of_decide_eq_true hef) (of_decide_eq_true hfg)))
    (fun e f => by simpa using Nat.le_total e.1.toNat f.1.toNat) order
  have hentries := Keyed.eq_entries_of_sorted ((List.mergeSort_perm order _).trans h)
    (hsorted.imp fun h => decide_eq_false (Nat.not_lt.2 (of_decide_eq_true h)))
  rw [storage_eq, sortedSlots, hentries]

/-- Three slots of two keys. -/
def replacing : List (Word × Word) := [(2, 20), (1, 7), (2, 21)]

/-- The same slots as an object, a key of which comes in two bases. -/
def replacingText : Text :=
  storing [.plain "0b10".toList "20".toList, .plain "1".toList "\"0x7\"".toList,
    .plain "0X_02".toList "21".toList]

/-- The slots that are left, as an object. -/
def replacedText : Text := storing [.plain "0x1".toList "7".toList, .plain "2".toList " 21 ".toList]

end Renderer

end StepScope
