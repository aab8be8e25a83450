import StepScope.Proofs.Hex
import StepScope.Proofs.JsonNesting
import StepScope.Proofs.Keyed
import StepScope.Snapshot.Reader

/-!
A snapshot is read back from its JSON text, whatever the order of its storage slots, unless the calling
frames nest the text deeper than brackets may be opened. Each frame is nested two brackets deep.
-/

namespace StepScope

/-! Words, bytes and addresses in strings -/

namespace WordText

theorem digit?_digitChar {d : Nat} (h : d < 16) : digit? (Nat.digitChar d) = some d := by
  revert d
  decide

theorem number?_append (base n : Nat) (s t : Text) :
    number? base n (s ++ t) = (number? base n s).bind fun m => number? base m t := by
  induction s generalizing n with
  | nil => rfl
  | cons c s ih =>
    rw [List.cons_append, number?, number?]
    split
    · split
      · exact ih _
      · rfl
    · rfl

theorem number?_hexadecimal (n : Nat) : number? 16 0 (Text.hexadecimal n) = some n := by
  have hdigit : ∀ n {d}, d < 16 → number? 16 n [Nat.digitChar d] = some (16 * n + d) := by
    intro n d hd
    simp [number?, digit?_digitChar hd, hd]
  rw [Text.hexadecimal]
  induction n using Nat.base_induction 16 (by decide) with
  | single m hm => rw [Nat.toDigits_of_lt_base hm, hdigit 0 hm, Nat.mul_zero, Nat.zero_add]
  | digit m k hk hm ih =>
    rw [← Nat.toDigits_append_toDigits (by decide) hm hk, Nat.toDigits_of_lt_base hk, number?_append,
      ih, Option.bind_some, hdigit m hk]

@[simp] theorem read?_text (w : Word) : read? w.text = some w := by
  have hne : ∀ d < 16, Nat.digitChar d ≠ '_' := by decide
  have hplain : (Text.hexadecimal w.toNat).filter (· ≠ '_') = Text.hexadecimal w.toNat := by
    refine List.filter_eq_self.2 fun c hc => ?_
    obtain ⟨d, hd, rfl⟩ := Text.isHexDigit_of_mem_hexadecimal hc
    exact decide_eq_true (hne d hd)
  have hlt : w.toNat < Word.size := w.isLt
  have hbase : base w.text = (16, Text.hexadecimal w.toNat) := rfl
  simp only [read?, hbase, hplain, number?_hexadecimal, if_pos hlt, BitVec.ofNat_toNat,
    BitVec.setWidth_eq]

end WordText

@[simp] theorem Address.read_text (a : Address) : read a.text = .ok a := by
  have hlength : (Text.utf8 (Hex.ofBytes a.toBytes)).length = 40 := by
    rw [Hex.length_utf8_ofBytes, length_toBytes]
  have hmark : Hex.dropMark a.text = Hex.ofBytes a.toBytes := rfl
  simp [read, hmark, hlength, Except.map, Except.mapError]

namespace Snapshot

open Json

theorem isPlain_of_isHexDigit {c : Char} (h : Text.IsHexDigit c) : isPlain c = true := by
  obtain ⟨d, hd, rfl⟩ := h
  revert d
  decide

/-- Digits behind a mark stand for themselves in a string. -/
theorem isPlain_of_mem_marked {t : Text} (h : ∀ c ∈ t, Text.IsHexDigit c) :
    ∀ c ∈ '0' :: 'x' :: t, isPlain c = true := by
  intro c hc
  rcases List.mem_cons.1 hc with rfl | hc
  · rfl
  rcases List.mem_cons.1 hc with rfl | hc
  · rfl
  · exact isPlain_of_isHexDigit (h c hc)

theorem isPlain_of_mem_word (w : Word) : ∀ c ∈ w.text, isPlain c = true :=
  isPlain_of_mem_marked fun _ => Text.isHexDigit_of_mem_hexadecimal

theorem isPlain_of_mem_bytes (bytes : Bytes) :
    ∀ c ∈ '0' :: 'x' :: Hex.ofBytes bytes, isPlain c = true :=
  isPlain_of_mem_marked fun _ => Hex.isHexDigit_of_mem_ofBytes

theorem isPlain_of_mem_name (f : Field) : ∀ c ∈ f.name, isPlain c = true :=
  List.all_eq_true.1 (by cases f <;> decide)

theorem reads_below {n bound : Nat} (hn : n < bound) (hbound : bound ≤ greatest + 1) :
    Reads (readBelow bound) (Text.decimal n) (.ok n) := by
  intro rest hrest
  have htoken := reads_decimal (show n ≤ greatest by omega) rest hrest
  simp only [readBelow, htoken, Except.map, bind, Except.bind, if_pos hn]

theorem nests_decimal (n : Nat) : Nests (Text.decimal n) 0 := by
  refine .of_forall fun c hc hmem => ?_
  have hdigit := Text.isDigit_of_mem_decimal hc
  simp only [List.mem_cons, List.not_mem_nil, or_false] at hmem
  rcases hmem with rfl | rfl | rfl | rfl | rfl <;> cases hdigit

variable {limit depth : Nat}

theorem readsWithin_counter (n : UInt64) :
    ReadsWithin depth readCounter (Text.decimal n.toNat) n := by
  have hread : Reads (readBelow UInt64.size) (Text.decimal n.toNat) (.ok n.toNat) :=
    reads_below n.toNat_lt (by decide)
  have h : ReadsWithin depth readCounter _ (UInt64.ofNat n.toNat) :=
    (ReadsWithin.of_reads hread (nests_decimal _)).map UInt64.ofNat
  rwa [UInt64.ofNat_toNat] at h

theorem readsWithin_byte (b : UInt8) : ReadsWithin depth readByte (Text.decimal b.toNat) b := by
  have hread : Reads (readBelow UInt8.size) (Text.decimal b.toNat) (.ok b.toNat) :=
    reads_below b.toNat_lt (by decide)
  have h : ReadsWithin depth readByte _ (UInt8.ofNat b.toNat) :=
    (ReadsWithin.of_reads hread (nests_decimal _)).map UInt8.ofNat
  rwa [UInt8.ofNat_toNat] at h

theorem reads_word (depth : Nat) (w : Word) : Reads (readWord depth) (wordJson w) (.ok w) := by
  intro rest hrest
  have htoken := reads_stringJson (isPlain_of_mem_word w) rest hrest
  simp only [readWord, wordJson, htoken, Except.map, bind, Except.bind, WordText.read?_text]

theorem nests_wordJson (w : Word) : Nests (wordJson w) 0 := .of_stringJson (isPlain_of_mem_word w)

theorem readsWithin_word (w : Word) : ReadsWithin depth (readWord depth) (wordJson w) w :=
  .of_reads (reads_word depth w) (nests_wordJson w)

theorem readsWithin_bytes (bytes : Bytes) :
    ReadsWithin depth (readBytes limit depth) (bytesJson bytes) bytes := by
  refine .of_reads (fun rest hrest => ?_) (.of_stringJson (isPlain_of_mem_bytes bytes))
  have htoken := reads_stringJson (isPlain_of_mem_bytes bytes) rest hrest
  have hmark : Hex.dropMark ('0' :: 'x' :: Hex.ofBytes bytes) = Hex.ofBytes bytes := rfl
  simp only [readBytes, bytesJson, htoken, Except.map, bind, Except.bind, hmark,
    Hex.read_utf8_ofBytes]

theorem readsWithin_address (a : Address) :
    ReadsWithin depth (readAddress depth) (stringJson a.text) a := by
  have hplain : ∀ c ∈ a.text, isPlain c = true := isPlain_of_mem_bytes a.toBytes
  refine .of_reads (fun rest hrest => ?_) (.of_stringJson hplain)
  have htoken := reads_stringJson hplain rest hrest
  simp only [readAddress, htoken, Except.map, bind, Except.bind, Address.read_text]

/-! Arrays and storage -/

theorem readToken_enclosed_array (ts : List Text) (rest : Text) :
    readToken (enclosed '[' ']' ts ++ rest) = .ok (.openArray, chain true ts ++ ']' :: rest) := by
  rw [enclosed_eq, List.cons_append, List.append_assoc]
  rfl

theorem readToken_enclosed_object (ts : List Text) (rest : Text) :
    readToken (enclosed '\x7b' '\x7d' ts ++ rest) =
      .ok (.openObject, chain true ts ++ '\x7d' :: rest) := by
  rw [enclosed_eq, List.cons_append, List.append_assoc]
  rfl

/-- Where no bracket may be opened, an array is malformed whatever is in it. -/
theorem readsWithin_array_zero {α : Type} {item : Reader α} {ts : List Text}
    (hnests : ∀ t ∈ ts, Nests t (nesting t)) (as : List α) :
    ReadsWithin 0 (readArray limit 0 item) (enclosed '[' ']' ts) as := by
  intro rest _
  rw [fits_zero_enclosed (.inl rfl) (.inl rfl) hnests, readArray, readToken_enclosed_array]
  rfl

theorem readsWithin_array {α : Type} {item : Reader α} {ts : List Text} {as : List α}
    (h : List.Forall₂ (ReadsWithin depth item) ts as) (hnests : ∀ t ∈ ts, Nests t (nesting t))
    (hopens : ∀ t ∈ ts, Opens t) (hlimit : (enclosed '[' ']' ts).length < limit) :
    ReadsWithin (depth + 1) (readArray limit (depth + 1) item) (enclosed '[' ']' ts) as := by
  have hcount := length_lt_enclosed (fun t ht => (hopens t ht).ne_nil) '[' ']'
  intro rest _
  have hitems := readItems_chain h hopens (Nat.lt_trans hcount hlimit) true rest
  rw [fits_succ_enclosed (.inl rfl) (.inl rfl) hnests, readArray, readToken_enclosed_array]
  simp only [bind, Except.bind, Nat.add_eq_zero_iff, Nat.one_ne_zero, and_false, if_false, hitems]
  cases ts.all (fits depth) <;> rfl

theorem opens_wordJson (w : Word) : Opens (wordJson w) :=
  ⟨'"', w.text ++ ['"'], rfl, rfl, by decide⟩

theorem readsWithin_stack {words : List Word}
    (hlimit : (enclosed '[' ']' (words.map wordJson)).length < limit) :
    ReadsWithin depth (readArray limit depth (readWord (depth - 1)))
      (enclosed '[' ']' (words.map wordJson)) words := by
  have hnests : ∀ t ∈ words.map wordJson, Nests t (nesting t) :=
    List.forall_mem_map.2 fun w _ => (nests_wordJson w).self
  cases depth with
  | zero => exact readsWithin_array_zero hnests words
  | succ depth =>
    refine readsWithin_array ?_ hnests (List.forall_mem_map.2 fun w _ => opens_wordJson w) hlimit
    rw [List.forall₂_map_left_iff, List.forall₂_same]
    exact fun w _ => readsWithin_word w

theorem nests_slotJson (slot : Word × Word) : Nests (slotJson slot) 0 := by
  have hcolon : Nests [':'] 0 := .singleton (by decide)
  exact (nests_wordJson slot.1).append (hcolon.append (nests_wordJson slot.2))

theorem slotKey_text (w : Word) : slotKey w.text = .ok w := by
  rw [slotKey, WordText.read?_text]

/-- The storage is read back from its slots in any order. -/
theorem readsWithin_storage {slots : List (Word × Word)} {storage : Keyed Word Word}
    (h : slots.Perm storage.entries) (hlimit : (storageJson slots).length < limit) :
    ReadsWithin depth (readStorage limit depth) (storageJson slots) storage := by
  have hnests : ∀ t ∈ slots.map slotJson, Nests t (nesting t) :=
    List.forall_mem_map.2 fun slot _ => (nests_slotJson slot).self
  intro rest _
  rw [readStorage, storageJson, readToken_enclosed_object]
  cases depth with
  | zero =>
    rw [fits_zero_enclosed (.inr rfl) (.inr rfl) hnests]
    rfl
  | succ depth =>
    have hcount : (slots.map slotJson).length < (storageJson slots).length :=
      length_lt_enclosed (List.forall_mem_map.2 fun _ _ => List.cons_ne_nil _ _) '\x7b' '\x7d'
    rw [List.length_map] at hcount
    have hfits : (slots.map slotJson).all (fits depth) = true :=
      List.all_eq_true.2 (List.forall_mem_map.2 fun slot _ => by simp [(nests_slotJson slot).fits_eq])
    have hmembers : readMembers slotKey (readWord depth) limit true
        (chain true (slots.map slotJson) ++ '\x7d' :: rest) = .ok (slots, rest) :=
      readMembers_chain isPlain_of_mem_word slotKey_text (reads_word depth)
        (Nat.lt_trans hcount hlimit) true rest
    rw [fits_succ_enclosed (.inr rfl) (.inr rfl) hnests, hfits]
    simp only [bind, Except.bind, Nat.add_eq_zero_iff, Nat.one_ne_zero, and_false, if_false,
      Nat.add_sub_cancel, hmembers, Keyed.ofList_of_perm h, if_true, Except.map]

/-! Fields -/

/-- Takes over the value of a field. -/
def copy (x : Snapshot) : Field → Snapshot → Snapshot
  | .pc, y => { y with pc := x.pc }
  | .instruction, y => { y with instruction := x.instruction }
  | .gas, y => { y with gas := x.gas }
  | .gasCost, y => { y with gasCost := x.gasCost }
  | .steps, y => { y with steps := x.steps }
  | .newMemSize, y => { y with newMemSize := x.newMemSize }
  | .stack, y => { y with stack := x.stack }
  | .storage, y => { y with storage := x.storage }
  | .memory, y => { y with memory := x.memory }
  | .callData, y => { y with callData := x.callData }
  | .address, y => { y with address := x.address }
  | .levels, y => { y with levels := x.levels }

theorem foldl_copy (x y : Snapshot) : Field.all.foldl (fun y f => copy x f y) y = x := by
  cases x
  rfl

theorem readsWithin_field {x : Snapshot} {slots : List (Word × Word)} {frames : List Text}
    {reader : Reader (List Snapshot)} (hslots : slots.Perm x.storage.entries)
    (hlimit : ∀ f, (valueJson x slots frames f).length < limit)
    (hframes : ReadsWithin depth reader (enclosed '[' ']' frames) x.levels) (f : Field) :
    ReadsWithin depth (readField limit depth reader f) (valueJson x slots frames f) (copy x f) := by
  cases f with
  | pc => exact (readsWithin_counter x.pc).map fun v (y : Snapshot) => { y with pc := v }
  | instruction =>
    exact (readsWithin_byte x.instruction).map fun v (y : Snapshot) => { y with instruction := v }
  | gas => exact (readsWithin_counter x.gas).map fun v (y : Snapshot) => { y with gas := v }
  | gasCost =>
    exact (readsWithin_counter x.gasCost).map fun v (y : Snapshot) => { y with gasCost := v }
  | steps => exact (readsWithin_counter x.steps).map fun v (y : Snapshot) => { y with steps := v }
  | newMemSize =>
    exact (readsWithin_counter x.newMemSize).map fun v (y : Snapshot) => { y with newMemSize := v }
  | stack =>
    exact (readsWithin_stack (hlimit .stack)).map fun v (y : Snapshot) => { y with stack := v }
  | storage =>
    exact (readsWithin_storage hslots (hlimit .storage)).map fun v (y : Snapshot) => { y with storage := v }
  | memory => exact (readsWithin_bytes x.memory).map fun v (y : Snapshot) => { y with memory := v }
  | callData =>
    exact (readsWithin_bytes x.callData).map fun v (y : Snapshot) => { y with callData := v }
  | address =>
    exact (readsWithin_address x.address).map fun v (y : Snapshot) => { y with address := v }
  | levels => exact hframes.map fun v (y : Snapshot) => { y with levels := v }

theorem nests_memberJson (f : Field) {t : Text} {n : Nat} (h : Nests t n) :
    Nests (memberJson f t) n := by
  have hcolon : Nests [':'] 0 := .singleton (by decide)
  have hmember := (Nests.of_stringJson (isPlain_of_mem_name f)).append (hcolon.append h)
  rwa [Nat.zero_max, Nat.zero_max] at hmember

/-- Members of an object that come once each are read in their order. -/
theorem readNamed_chain {skipped : Text → Except Fault Text}
    {field : Field → Reader (Snapshot → Snapshot)} {value : Field → Text}
    {assign : Field → Snapshot → Snapshot}
    (h : ∀ f, ReadsWithin depth (field f) (value f) (assign f)) {fields seen : List Field}
    (hnodup : fields.Nodup) (hseen : ∀ f ∈ fields, f ∉ seen) {limit : Nat}
    (hlimit : fields.length < limit) (first : Bool) (x : Snapshot) (rest : Text) :
    readNamed skipped field limit seen first x
        (chain first (fields.map fun f => memberJson f (value f)) ++ '\x7d' :: rest) =
      if fields.all fun f => fits depth (value f) then
        .ok (fields.foldl (fun x f => assign f x) x, rest)
      else .error .malformed := by
  induction fields generalizing seen limit first x with
  | nil =>
    obtain ⟨limit, rfl⟩ := Nat.exists_eq_succ_of_ne_zero (Nat.ne_zero_of_lt hlimit)
    rfl
  | cons f fields ih =>
    obtain ⟨limit, rfl⟩ := Nat.exists_eq_succ_of_ne_zero (Nat.ne_zero_of_lt hlimit)
    obtain ⟨hf, hfields⟩ := List.nodup_cons.1 hnodup
    obtain ⟨hunseen, hseen⟩ := List.forall_mem_cons.1 hseen
    have hnext : ∀ g ∈ fields, g ∉ f :: seen := by
      intro g hg hmem
      rcases List.mem_cons.1 hmem with rfl | hmem
      · exact hf hg
      · exact hseen g hg hmem
    have hrest := ih hfields hnext (Nat.lt_of_succ_lt_succ hlimit) false (assign f x)
    have hcolon : ∀ s, readColon (':' :: s) = .ok s := fun _ => rfl
    have hread := h f _ (ends_chain (.inr rfl)
      (fields.map fun f => memberJson f (value f)) rest)
    rw [List.map_cons, memberJson, readNamed, nextMember_chain (isPlain_of_mem_name f), List.all_cons]
    simp only [bind, Except.bind, Field.ofName?_name, if_neg hunseen, hcolon, hread]
    cases fits depth (value f) with
    | false => rfl
    | true => simpa only [if_true, Except.map, Bool.true_and, List.foldl_cons] using hrest

/-! Snapshots -/

/-- The texts of a snapshot: all fields in their order, but the slots of the storage in any order, and
so in the calling frames. -/
inductive Written : Snapshot → Text → Prop
  | object {x : Snapshot} {slots : List (Word × Word)} {frames : List Text}
      (hslots : slots.Perm x.storage.entries) (hframes : List.Forall₂ Written x.levels frames) :
      Written x (objectJson x slots frames)

/-- What holds of a snapshot whenever it holds of its calling frames holds of every snapshot. -/
theorem induction_levels {P : Snapshot → Prop} (h : ∀ x, (∀ y ∈ x.levels, P y) → P x)
    (x : Snapshot) : P x :=
  h x fun y _ => induction_levels h y
termination_by sizeOf x
decreasing_by
  have hmem := List.sizeOf_lt_of_mem ‹y ∈ x.levels›
  cases x
  simp only [mk.sizeOf_spec] at hmem ⊢
  omega

theorem written_toJson (x : Snapshot) : Written x x.toJson := by
  induction x using induction_levels with
  | h x ih =>
    rw [toJson_eq]
    refine .object (.refl _) ?_
    rw [List.forall₂_map_right_iff, List.forall₂_same]
    exact ih

theorem Written.opens {x : Snapshot} {t : Text} (h : Written x t) : Opens t := by
  cases h with
  | object => exact ⟨'\x7b', _, rfl, rfl, by decide⟩

theorem exists_written_of_mem {levels : List Snapshot} {frames : List Text}
    (h : List.Forall₂ Written levels frames) {t : Text} (ht : t ∈ frames) : ∃ x, Written x t := by
  induction h with
  | nil => cases ht
  | @cons x u _ _ hx _ ih =>
    rcases List.mem_cons.1 ht with rfl | ht
    · exact ⟨x, hx⟩
    · exact ih ht

/-! How deep the calling frames nest a text -/

mutual

/-- The number of frames on the longest way through the calling frames, this one included. -/
def height : Snapshot → Nat
  | ⟨_, _, _, _, _, _, _, _, _, _, _, levels⟩ => heightAll levels + 1

def heightAll : List Snapshot → Nat
  | [] => 0
  | x :: levels => max (height x) (heightAll levels)

end

theorem height_eq (x : Snapshot) : x.height = heightAll x.levels + 1 := by
  cases x
  rw [height]

/-- The nesting of a field's value, where that of the calling frames is known. -/
def valueNesting (ofLevels : Nat) : Field → Nat
  | .stack => 1
  | .storage => 1
  | .levels => ofLevels
  | _ => 0

section Members

variable {x : Snapshot} {slots : List (Word × Word)} {frames : List Text}

theorem nests_valueJson {n : Nat} (h : Nests (enclosed '[' ']' frames) n) (f : Field) :
    Nests (valueJson x slots frames f) (valueNesting n f) := by
  cases f with
  | stack =>
    exact .of_enclosed_flat (.inl rfl) (.inl rfl) (List.forall_mem_map.2 fun w _ => nests_wordJson w)
  | storage =>
    exact .of_enclosed_flat (.inr rfl) (.inr rfl) (List.forall_mem_map.2 fun s _ => nests_slotJson s)
  | levels => exact h
  | memory => exact .of_stringJson (isPlain_of_mem_bytes x.memory)
  | callData => exact .of_stringJson (isPlain_of_mem_bytes x.callData)
  | address => exact .of_stringJson (isPlain_of_mem_bytes x.address.toBytes)
  | _ => exact nests_decimal _

theorem forall_mem_membersJson {P : Text → Prop}
    (h : ∀ f, P (memberJson f (valueJson x slots frames f))) : ∀ t ∈ membersJson x slots frames, P t :=
  List.forall_mem_map.2 fun f _ => h f

theorem nests_objectJson {n : Nat} (h : Nests (enclosed '[' ']' frames) (n + 1)) :
    Nests (objectJson x slots frames) (n + 2) := by
  have hmember : ∀ f, Nests (memberJson f (valueJson x slots frames f)) (valueNesting (n + 1) f) :=
    fun f => nests_memberJson f (nests_valueJson h f)
  have hnesting : (membersJson x slots frames).map nesting =
      Field.all.map (valueNesting (n + 1)) := by
    rw [membersJson, List.map_map]
    exact List.map_congr_left fun f _ => (hmember f).nesting_eq
  have hobject : Nests (objectJson x slots frames) _ :=
    .of_enclosed (.inr rfl) (.inr rfl) (forall_mem_membersJson fun f => (hmember f).self)
  rw [hnesting] at hobject
  have hdeepest : (Field.all.map (valueNesting (n + 1))).foldr max 0 = n + 1 := by
    simp [Field.all, valueNesting]
  rwa [hdeepest] at hobject

theorem length_valueJson_lt (f : Field) :
    (valueJson x slots frames f).length < (objectJson x slots frames).length := by
  have hmem : memberJson f (valueJson x slots frames f) ∈ membersJson x slots frames :=
    List.mem_map.2 ⟨f, Field.mem_all f, rfl⟩
  have hmember := length_lt_enclosed_of_mem hmem '\x7b' '\x7d'
  have hvalue : (valueJson x slots frames f).length ≤
      (memberJson f (valueJson x slots frames f)).length := by
    rw [memberJson, List.length_append, List.length_cons]
    omega
  exact Nat.lt_of_le_of_lt hvalue hmember

end Members

theorem nests_frames {levels : List Snapshot} {frames : List Text}
    (h : List.Forall₂ (fun x t => Nests t (2 * x.height)) levels frames) :
    Nests (enclosed '[' ']' frames) (2 * heightAll levels + 1) := by
  have hnests : ∀ t ∈ frames, Nests t (nesting t) := by
    induction h with
    | nil => exact List.forall_mem_nil _
    | cons hx _ ih => exact List.forall_mem_cons.2 ⟨hx.self, ih⟩
  have hdeepest : (frames.map nesting).foldr max 0 = 2 * heightAll levels := by
    clear hnests
    induction h with
    | nil => rfl
    | cons hx _ ih =>
      rw [List.map_cons, List.foldr_cons, hx.nesting_eq, ih, heightAll]
      omega
  rw [← hdeepest]
  exact .of_enclosed (.inl rfl) (.inl rfl) hnests

/-- Each frame puts two brackets around its calling frames. -/
theorem Written.nests {x : Snapshot} {t : Text} (h : Written x t) : Nests t (2 * x.height) := by
  induction x using induction_levels generalizing t with
  | h x ih =>
    cases h with
    | @object _ slots frames hslots hframes =>
      have hall : ∀ y ∈ x.levels, ∀ t, Written y t → Nests t (2 * y.height) := fun y hy _ => ih y hy
      have hlevels : List.Forall₂ (fun y t => Nests t (2 * y.height)) x.levels frames :=
        ((List.forall₂_and_left _ _).2 ⟨hall, hframes⟩).imp fun _ t h => h.1 t h.2
      rw [height_eq, Nat.mul_add]
      exact nests_objectJson (nests_frames hlevels)

/-! Reading -/

theorem readsWithin_none {x : Snapshot} {t : Text} (h : Written x t) : ReadsWithin 0 readNone t x := by
  intro rest _
  have hfits : fits 0 t = false := by
    rw [h.nests.fits_eq, height_eq]
    simp
  cases h with
  | object =>
    rw [hfits, objectJson, readNone, readToken_enclosed_object]
    rfl

/-- An object of all fields is read, with one bracket less for what is in the fields. -/
theorem readsWithin_object {x : Snapshot} {slots : List (Word × Word)} {frames : List Text}
    {reader : Reader (List Snapshot)} (hlimit : (objectJson x slots frames).length < limit)
    (hnests : ∀ t ∈ frames, Nests t (nesting t))
    (h : ∀ f, ReadsWithin depth (readField limit depth reader f) (valueJson x slots frames f)
      (copy x f)) :
    ReadsWithin (depth + 1) (readWith limit depth reader) (objectJson x slots frames) x := by
  have hmember : ∀ f, Nests (memberJson f (valueJson x slots frames f))
      (nesting (valueJson x slots frames f)) := fun f =>
    nests_memberJson f (nests_valueJson (.of_enclosed (.inl rfl) (.inl rfl) hnests) f).self
  have hfits : (membersJson x slots frames).all (fits depth) =
      Field.all.all fun f => fits depth (valueJson x slots frames f) := by
    rw [membersJson, List.all_map]
    exact congrArg Field.all.all (funext fun f => (hmember f).fits_eq depth)
  have hcount : (membersJson x slots frames).length < (objectJson x slots frames).length :=
    length_lt_enclosed (forall_mem_membersJson fun _ => List.cons_ne_nil _ _) '\x7b' '\x7d'
  rw [membersJson, List.length_map] at hcount
  intro rest _
  have hread : readNamed (skipValue limit) (readField limit depth reader) limit [] true {}
      (chain true (membersJson x slots frames) ++ '\x7d' :: rest) = _ :=
    readNamed_chain h (by decide) (fun _ _ => List.not_mem_nil) (Nat.lt_trans hcount hlimit) true {} rest
  rw [objectJson, readWith, readToken_enclosed_object,
    fits_succ_enclosed (.inr rfl) (.inr rfl) (forall_mem_membersJson fun f => (hmember f).self),
    hfits]
  simp only [bind, Except.bind, hread, foldl_copy]
  cases Field.all.all fun f => fits depth (valueJson x slots frames f) <;> rfl

/-- Induction on the calling frames, each of which is shorter than the text it is in. -/
theorem Written.readsWithin {x : Snapshot} {t : Text} (h : Written x t) (hlimit : t.length < limit)
    (depth : Nat) : ReadsWithin depth (read limit depth) t x := by
  induction x using induction_levels generalizing t depth with
  | h x ih =>
    have hnone := readsWithin_none h
    cases h with
    | @object _ slots frames hslots hframes =>
      have hvalue : ∀ f, (valueJson x slots frames f).length < limit :=
        fun f => Nat.lt_trans (length_valueJson_lt f) hlimit
      have hshort : ∀ t ∈ frames, t.length < limit :=
        fun t ht => Nat.lt_trans (length_lt_enclosed_of_mem ht '[' ']') (hvalue .levels)
      have hopens : ∀ t ∈ frames, Opens t := by
        intro t ht
        obtain ⟨y, hy⟩ := exists_written_of_mem hframes ht
        exact hy.opens
      have hnests : ∀ t ∈ frames, Nests t (nesting t) := by
        intro t ht
        obtain ⟨y, hy⟩ := exists_written_of_mem hframes ht
        exact hy.nests.self
      -- The frames may be read at any depth, as the induction hypothesis is for all of them.
      have hread : ∀ depth, List.Forall₂ (ReadsWithin depth (read limit depth)) frames x.levels := by
        intro depth
        have hall : ∀ y ∈ x.levels, ∀ t, Written y t → t.length < limit →
            ReadsWithin depth (read limit depth) t y := fun y hy _ h ht => ih y hy h ht depth
        have hlevels : List.Forall₂ (fun t y => t.length < limit →
            ReadsWithin depth (read limit depth) t y) frames x.levels :=
          (((List.forall₂_and_left _ _).2 ⟨hall, hframes⟩).imp fun _ t h => h.1 t h.2).flip
        exact ((List.forall₂_and_left _ _).2 ⟨hshort, hlevels⟩).imp fun _ _ h => h.2 h.1
      have hobject : ∀ {depth reader},
          ReadsWithin depth reader (enclosed '[' ']' frames) x.levels →
            ReadsWithin (depth + 1) (readWith limit depth reader) (objectJson x slots frames) x :=
        fun hlevels => readsWithin_object hlimit hnests (readsWithin_field hslots hvalue hlevels)
      match depth with
      | 0 => exact hnone
      -- The array of the calling frames is one bracket too many, so no frame is looked at.
      | 1 => exact hobject (readsWithin_array_zero hnests x.levels)
      | depth + 2 => exact hobject (readsWithin_array (hread depth) hnests hopens (hvalue .levels))

theorem ofJson_of_written {x : Snapshot} {t : Text} (h : Written x t) :
    ofJson t = if nesting t ≤ maxDepth then .ok x else .error .malformed := by
  have hread := h.readsWithin (Nat.lt_succ_self _) maxDepth [] .text
  rw [List.append_nil] at hread
  rw [ofJson, hread]
  by_cases hnesting : nesting t ≤ maxDepth
  · rw [if_pos hnesting, fits, if_pos (decide_eq_true hnesting)]
    rfl
  · rw [if_neg hnesting, fits, if_neg (by simpa using hnesting)]
    rfl

/-- So 63 frames within each other are the most that can be read back. -/
theorem ofJson_toJson (x : Snapshot) :
    ofJson x.toJson = if x.height ≤ 63 then .ok x else .error .malformed := by
  have hfits : nesting x.toJson ≤ maxDepth ↔ x.height ≤ 63 := by
    rw [(written_toJson x).nests.nesting_eq, maxDepth]
    omega
  rw [ofJson_of_written (written_toJson x)]
  simp only [hfits]

/-- A snapshot is read back from what is written for it, the slots of each storage in whatever order,
unless the text is nested deeper than brackets may be opened. Then it is malformed. -/
theorem ofJson_written (x : Snapshot) :
    Written x x.toJson ∧
      ∀ t, Written x t → ofJson t = if nesting t ≤ maxDepth then .ok x else .error .malformed :=
  ⟨written_toJson x, fun _ h => ofJson_of_written h⟩

/-- Called as many times in a row. -/
def calls : (count : Nat) → Snapshot
  | 0 => {}
  | count + 1 => { levels := [calls count] }

theorem height_calls (count : Nat) : (calls count).height = count + 1 := by
  induction count with
  | zero => rfl
  | succ count ih =>
    rw [height_eq, calls, heightAll, heightAll, ih]
    rfl

/-- A frame that was called once, with two slots in its storage. -/
def twoSlots : Snapshot where
  gas := 0xffffffffffffffff
  storage := ⟨[(1, 2), (3, 4)], by decide⟩
  levels := [calls 0]

theorem ofJson_written_calls :
    ofJson (objectJson twoSlots [(3, 4), (1, 2)] [(calls 0).toJson]) = .ok twoSlots ∧
      ofJson (calls 62).toJson = .ok (calls 62) ∧ ofJson (calls 63).toJson = .error .malformed := by
  have hslots : Written twoSlots (objectJson twoSlots [(3, 4), (1, 2)] [(calls 0).toJson]) :=
    .object (.swap _ _ []) (.cons (ofJson_written (calls 0)).1 .nil)
  have hfit : ∀ {x : Snapshot} {t}, Written x t → x.height ≤ 63 → nesting t ≤ maxDepth := by
    intro x t h hheight
    rw [h.nests.nesting_eq, maxDepth]
    omega
  have hdeep : ¬ nesting (calls 63).toJson ≤ maxDepth := by
    rw [(ofJson_written (calls 63)).1.nests.nesting_eq, height_calls]
    decide
  refine ⟨?_, ?_, ?_⟩
  · rw [(ofJson_written twoSlots).2 _ hslots, if_pos (hfit hslots (by decide))]
  · have h := ofJson_written (calls 62)
    rw [h.2 _ h.1, if_pos (hfit h.1 (height_calls 62).le)]
  · have h := ofJson_written (calls 63)
    rw [h.2 _ h.1, if_neg hdeep]

end Snapshot

end StepScope
