import StepScope.Proofs.SnapshotJson
import StepScope.Proofs.SnapshotLocality

/-!
The written forms of a snapshot agree. The values of its first fields may stand in an array, or in an object
under their names in any order and with other members among them: what is read is the same, and the other
fields have their defaults. So it is for the calling frames inside a snapshot.
-/

namespace StepScope.Snapshot

open Json

/-! Taking over fields -/

theorem copy_comm (x z : Snapshot) (f g : Field) : copy x f (copy x g z) = copy x g (copy x f z) := by
  cases f <;> cases g <;> rfl

theorem copy_copy (x y : Snapshot) (f : Field) : copy (copy x f y) f = copy x f := by
  cases f <;> rfl

theorem copy_copy_of_ne (x y : Snapshot) {f g : Field} (h : g ≠ f) : copy (copy x f y) g = copy y g := by
  cases f <;> cases g <;> first | rfl | exact absurd rfl h

theorem readField_eq_copy {limit depth : Nat} {frames : Reader (List Snapshot)} {f : Field} {s u : Text}
    {a : Snapshot → Snapshot} (h : readField limit depth frames f s = .ok (a, u)) : ∃ x, a = copy x f := by
  cases f
  all_goals
    obtain ⟨⟨v, u'⟩, _, hpair⟩ := map_eq_ok h
    cases hpair
  case pc => exact ⟨{ pc := v }, rfl⟩
  case instruction => exact ⟨{ instruction := v }, rfl⟩
  case gas => exact ⟨{ gas := v }, rfl⟩
  case gasCost => exact ⟨{ gasCost := v }, rfl⟩
  case steps => exact ⟨{ steps := v }, rfl⟩
  case newMemSize => exact ⟨{ newMemSize := v }, rfl⟩
  case stack => exact ⟨{ stack := v }, rfl⟩
  case storage => exact ⟨{ storage := v }, rfl⟩
  case memory => exact ⟨{ memory := v }, rfl⟩
  case callData => exact ⟨{ callData := v }, rfl⟩
  case address => exact ⟨{ address := v }, rfl⟩
  case levels => exact ⟨{ levels := v }, rfl⟩

/-! Arrays and objects -/

/-- The members of an object, of which those of known fields give these texts in this order. The others are
well-formed. -/
inductive Members : List (Field × Text) → List Property → Prop
  | nil : Members [] []
  | known {f : Field} {e : Property} {given : List (Field × Text)} {es : List Property}
      (hname : e.Named f.name) (h : Members given es) : Members ((f, e.value) :: given) (e :: es)
  | unknown {name : Text} {e : Property} {given : List (Field × Text)} {es : List Property}
      (hname : e.Named name) (hnone : Field.ofName? name = none) (hvalue : IsValue e.value) (h : Members given es) :
      Members given (e :: es)

theorem members_plain (value : Field → Text) (fields : List Field) :
    Members (fields.map fun f => (f, value f)) (fields.map fun f => Property.plain f.name (value f)) := by
  induction fields with
  | nil => exact .nil
  | cons f fields ih => exact .known (Property.named_plain (isPlain_of_mem_name f) (value f)) ih

theorem nodup_cons_seen {f : Field} {fields seen : List Field} (hseen : f ∉ seen) :
    ((f :: fields).Nodup ∧ ∀ g ∈ f :: fields, g ∉ seen) ↔ fields.Nodup ∧ ∀ g ∈ fields, g ∉ f :: seen := by
  rw [List.nodup_cons, List.forall_mem_cons]
  simp only [List.mem_cons, not_or]
  constructor
  · rintro ⟨⟨hf, hnodup⟩, _, hfields⟩
    exact ⟨hnodup, fun g hg => ⟨fun heq => hf (heq ▸ hg), hfields g hg⟩⟩
  · rintro ⟨hnodup, hfields⟩
    exact ⟨⟨fun hf => (hfields f hf).1 rfl, hnodup⟩, hseen, fun g hg => (hfields g hg).2⟩

section Fields

variable {field : Nat → Field → Reader (Snapshot → Snapshot)}
  (hfield : ∀ f, Tokenwise fun limit => field limit f)

include hfield

theorem readPositional_chain {assign : Field → Snapshot → Snapshot} {fields : List Field} {ts : List Text}
    (h : List.Forall₂ (fun f t => Takes (fun limit => field limit f) t (assign f)) fields ts)
    (more : List Field) {limit : Nat} (first : Bool) {u : Text} (hu : Blank u) (x : Snapshot) (rest : Text)
    (hlimit : (u ++ (chain first ts ++ ']' :: rest)).length < limit) :
    readPositional (field limit) (fields ++ more) first x (u ++ (chain first ts ++ ']' :: rest)) =
      .ok (fields.foldl (fun x f => assign f x) x, rest) := by
  induction h generalizing first u x with
  | nil =>
    cases more with
    | nil =>
      have hclosing : isBlank ']' = false := rfl
      have hclose : closeArray (u ++ ']' :: rest) = .ok rest := by
        rw [closeArray, skipBlank_append hu, skipBlank_cons hclosing]
        rfl
      simp only [chain, List.nil_append, readPositional, hclose]
      rfl
    | cons f more =>
      simp only [chain, List.nil_append, readPositional, nextItem_closing hu]
      rfl
  | @cons f t fields ts ht _ ih =>
    obtain ⟨u', hu', hshort, hread⟩ := ht.before (hfield f)
    have hlength := Nat.lt_of_le_of_lt (length_item_le t u first ts (']' :: rest)) hlimit
    have hvalue : field limit f (skipBlank (t ++ (chain false ts ++ ']' :: rest))) =
        .ok (assign f, u' ++ (chain false ts ++ ']' :: rest)) := by
      rw [(hfield f).skipBlank]
      exact hread (ends_chain (.inl rfl) ts rest) hlength
    rw [List.cons_append, readPositional, nextItem_blank hu, nextItem_front (ht.front (hfield f))]
    simp only [bind, Except.bind, hvalue]
    apply ih false hu'
    rw [List.length_append] at hlength ⊢
    omega

theorem readNamed_members {given : List (Field × Text)} {es : List Property} (h : Members given es)
    {assigns : List (Snapshot → Snapshot)}
    (hgiven : List.Forall₂ (fun g a => Takes (fun limit => field limit g.1) g.2 a) given assigns)
    {limit steps : Nat} (seen : List Field) (first : Bool) {u : Text} (hu : Blank u) (x : Snapshot)
    (rest : Text)
    (hlimit : (u ++ (chain first (es.map Property.text) ++ '\x7d' :: rest)).length < limit)
    (hsteps : (u ++ (chain first (es.map Property.text) ++ '\x7d' :: rest)).length < steps) :
    readNamed (skipValue limit) (field limit) steps seen first x
        (u ++ (chain first (es.map Property.text) ++ '\x7d' :: rest)) =
      if (given.map Prod.fst).Nodup ∧ ∀ f ∈ given.map Prod.fst, f ∉ seen then
        .ok (assigns.foldl (fun x a => a x) x, rest)
      else .error .mistyped := by
  induction h generalizing assigns steps seen first u x with
  | nil =>
    cases hgiven
    obtain ⟨steps, rfl⟩ := Nat.exists_eq_succ_of_ne_zero (Nat.ne_zero_of_lt hsteps)
    simp only [List.map_nil, chain, List.nil_append, readNamed, nextMember_closing hu]
    simp [bind, Except.bind]
  | @known f e given es hname h ih =>
    cases hgiven with
    | @cons _ a _ assigns ht hgiven =>
    obtain ⟨steps, rfl⟩ := Nat.exists_eq_succ_of_ne_zero (Nat.ne_zero_of_lt hsteps)
    have hlt := e.length_value_lt u first (es.map Property.text) ('\x7d' :: rest)
    rw [List.map_cons] at hlimit hsteps ⊢
    rw [List.map_cons, readNamed, nextMember_blank hu, hname.nextMember]
    simp only [bind, Except.bind, Field.ofName?_name]
    by_cases hseen : f ∈ seen
    · have hnot : ¬ ((f :: given.map Prod.fst).Nodup ∧ ∀ g ∈ f :: given.map Prod.fst, g ∉ seen) :=
        fun hall => hall.2 f List.mem_cons_self hseen
      rw [if_pos hseen, if_neg hnot]
    · obtain ⟨u', hu', hshort, hread⟩ := ht.before (hfield f)
      have hvalue := hread (ends_chain (.inr rfl) (es.map Property.text) rest) (Nat.lt_trans hlt hlimit)
      change u'.length < e.value.length at hshort
      rw [List.length_append] at hlt
      simp only [if_neg hseen, hname.readColon, hvalue, nodup_cons_seen hseen]
      apply ih hgiven (f :: seen) false hu' (a x)
      all_goals
        rw [List.length_append]
        omega
  | @unknown name e given es hname hnone hvalue h ih =>
    obtain ⟨steps, rfl⟩ := Nat.exists_eq_succ_of_ne_zero (Nat.ne_zero_of_lt hsteps)
    have hlt := e.length_value_lt u first (es.map Property.text) ('\x7d' :: rest)
    obtain ⟨u', hu', hskip⟩ := hvalue.skipValue (ends_chain (.inr rfl) (es.map Property.text) rest)
      (Nat.lt_trans hlt hlimit)
    have hle := (skipValue_append hskip).1
    rw [List.map_cons] at hlimit hsteps ⊢
    rw [readNamed, nextMember_blank hu, hname.nextMember]
    simp only [bind, Except.bind, hnone, hname.readColon, hskip]
    apply ih hgiven seen false hu' x
    · omega
    · omega

end Fields

/-! Forms -/

/-- On its own the text is a value of the field, and this is what it makes of a snapshot. As before `depth`
counts the brackets that may be opened. -/
def Accepts (depth : Nat) (f : Field) (t : Text) (a : Snapshot → Snapshot) : Prop :=
  Takes (fun limit => readField limit depth (readFrames limit depth) f) t a

/-- On its own the text is read as the snapshot. -/
def Holds (depth : Nat) (t : Text) (x : Snapshot) : Prop := Takes (fun limit => read limit depth) t x

/-- The text is at fault with the kind of something in it, whatever follows. -/
def Refused (depth : Nat) (t : Text) : Prop :=
  ∀ rest limit, (t ++ rest).length < limit → read limit depth (t ++ rest) = .error .mistyped

/-- The snapshot has the default of the field. -/
def HasDefault (x : Snapshot) (f : Field) : Prop := copy x f {} = {}

/-- The written forms of a snapshot where so many fields from the first on have values: the values in an
array, or in an object under the names of their fields, in any order and whatever other members there are. -/
inductive Form (depth k : Nat) (x : Snapshot) (t : Text) : Prop
  | array {values : List Text}
      (h : List.Forall₂ (fun f t => Accepts depth f t (copy x f)) (Field.all.take k) values)
      (ht : Encloses .array values t)
  | object {given : List (Field × Text)} {es : List Property} (hmembers : Members given es)
      (hperm : (given.map Prod.fst).Perm (Field.all.take k))
      (h : ∀ g ∈ given, Accepts depth g.1 g.2 (copy x g.1)) (ht : Encloses .object (es.map Property.text) t)

theorem holds_iff_ofJson {t : Text} {x : Snapshot} : Holds maxDepth t x ↔ ofJson t = .ok x := by
  constructor
  · rintro ⟨u, hread, hend⟩
    simp only [ofJson, hread, bind, Except.bind, hend]
    rfl
  · intro h
    obtain ⟨⟨y, u⟩, hread, h⟩ := bind_eq_ok h
    obtain ⟨_, hend, h⟩ := bind_eq_ok h
    cases h
    exact ⟨u, hread, hend⟩

theorem Refused.ofJson {t : Text} (h : Refused maxDepth t) : ofJson t = .error .mistyped := by
  have hread := h [] (t.length + 1) (by simp)
  rw [List.append_nil] at hread
  rw [Snapshot.ofJson, hread]
  rfl

theorem tokenwise_field (depth : Nat) (f : Field) :
    Tokenwise fun limit => readField limit depth (readFrames limit depth) f :=
  tokenwise_readField (tokenwise_readFrames depth) depth f

section Bracketed

variable {depth : Nat} {t : Text}

theorem holds_array {x : Snapshot} {fields more : List Field} (hall : fields ++ more = Field.all)
    {values : List Text} (h : List.Forall₂ (fun f t => Accepts depth f t (copy x f)) fields values)
    (ht : Encloses .array values t) :
    Holds (depth + 1) t (fields.foldl (fun y f => copy x f y) {}) := by
  obtain ⟨lead, gap, trail, hlead, hgap, htrail, rfl⟩ := ht
  apply takes_padded (tokenwise_read (depth + 1)) hlead htrail
  intro limit hlimit
  rw [Bracket.around_append, List.length_cons] at hlimit
  have hread := readPositional_chain (tokenwise_field depth) h more true hgap {} trail
    (Nat.lt_of_succ_lt hlimit)
  rw [hall] at hread
  rw [Bracket.around_append, read_succ, ← hread]
  rfl

theorem read_object {given : List (Field × Text)} {es : List Property} (h : Members given es)
    {assigns : List (Snapshot → Snapshot)}
    (hgiven : List.Forall₂ (fun g a => Accepts depth g.1 g.2 a) given assigns) {gap : Text} (hgap : Blank gap)
    (rest : Text) {limit : Nat}
    (hlimit : (Bracket.object.around gap (es.map Property.text) ++ rest).length < limit) :
    read limit (depth + 1) (Bracket.object.around gap (es.map Property.text) ++ rest) =
      if (given.map Prod.fst).Nodup then .ok (assigns.foldl (fun x a => a x) {}, rest)
      else .error .mistyped := by
  rw [Bracket.around_append, List.length_cons] at hlimit
  have hread := readNamed_members (tokenwise_field depth) h hgiven [] true hgap {} rest
    (Nat.lt_of_succ_lt hlimit) (Nat.lt_of_succ_lt hlimit)
  simp only [List.not_mem_nil, not_false_eq_true, implies_true, and_true] at hread
  rw [Bracket.around_append, read_succ, ← hread]
  rfl

theorem holds_object {x : Snapshot} {given : List (Field × Text)} {es : List Property} (h : Members given es)
    (hnodup : (given.map Prod.fst).Nodup) (hgiven : ∀ g ∈ given, Accepts depth g.1 g.2 (copy x g.1))
    (ht : Encloses .object (es.map Property.text) t) :
    Holds (depth + 1) t ((given.map Prod.fst).foldl (fun y f => copy x f y) {}) := by
  have hassigns : List.Forall₂ (fun g a => Accepts depth g.1 g.2 a) given
      (given.map fun g => copy x g.1) := by
    rw [List.forall₂_map_right_iff, List.forall₂_same]
    exact hgiven
  obtain ⟨lead, gap, trail, hlead, hgap, htrail, rfl⟩ := ht
  apply takes_padded (tokenwise_read (depth + 1)) hlead htrail
  intro limit hlimit
  rw [read_object h hassigns hgap trail hlimit, if_pos hnodup, List.foldl_map, List.foldl_map]

theorem refused_object {given : List (Field × Text)} {es : List Property} (h : Members given es)
    (hgiven : ∀ g ∈ given, ∃ a, Accepts depth g.1 g.2 a) (htwice : ¬ (given.map Prod.fst).Nodup)
    (ht : Encloses .object (es.map Property.text) t) : Refused (depth + 1) t := by
  have hassigns : ∃ assigns, List.Forall₂ (fun g a => Accepts depth g.1 g.2 a) given assigns := by
    clear h htwice
    induction given with
    | nil => exact ⟨[], .nil⟩
    | cons g given ih =>
      obtain ⟨⟨a, ha⟩, hgiven⟩ := List.forall_mem_cons.1 hgiven
      obtain ⟨assigns, hassigns⟩ := ih hgiven
      exact ⟨a :: assigns, .cons ha hassigns⟩
  obtain ⟨assigns, hassigns⟩ := hassigns
  obtain ⟨lead, gap, trail, hlead, hgap, htrail, rfl⟩ := ht
  intro rest limit hlimit
  rw [List.append_assoc, List.append_assoc] at hlimit ⊢
  rw [(tokenwise_read (depth + 1)).blank hlead, read_object h hassigns hgap, if_neg htwice]
  exact Nat.lt_of_le_of_lt (by simp) hlimit

/-- Frames that are each read on their own are the calling frames, one bracket further inside. -/
theorem accepts_levels {x : Snapshot} {frames : List Text} (h : List.Forall₂ (Holds depth) frames x.levels)
    (ht : Encloses .array frames t) : Accepts (depth + 1) .levels t (copy x .levels) := by
  obtain ⟨lead, gap, trail, hlead, hgap, htrail, rfl⟩ := ht
  have hframes : Takes (fun limit => readFrames limit (depth + 1))
      (lead ++ (Bracket.array.around gap frames ++ trail)) x.levels := by
    apply takes_padded (tokenwise_readFrames (depth + 1)) hlead htrail
    intro limit hlimit
    rw [Bracket.around_append, List.length_cons] at hlimit
    have hread := readItems_takes (tokenwise_read depth) h true hgap trail (Nat.lt_of_succ_lt hlimit)
      (Nat.lt_of_succ_lt hlimit)
    rw [Bracket.around_append]
    exact hread
  obtain ⟨u, hread, hend⟩ := hframes
  refine ⟨u, ?_, hend⟩
  simp only [readField, hread]
  rfl

end Bracketed

theorem exists_accepts {depth : Nat} {fields : List Field} (hnodup : fields.Nodup) {values : List Text}
    (h : List.Forall₂ (fun f t => ∃ a, Accepts depth f t a) fields values) :
    ∃ x, (∀ f ∉ fields, HasDefault x f) ∧
      List.Forall₂ (fun f t => Accepts depth f t (copy x f)) fields values := by
  induction h with
  | nil => exact ⟨{}, fun f _ => by cases f <;> rfl, .nil⟩
  | @cons f t fields values ht _ ih =>
    obtain ⟨hf, hfields⟩ := List.nodup_cons.1 hnodup
    obtain ⟨x, hdefaults, hvalues⟩ := ih hfields
    obtain ⟨_, u, hread, hend⟩ := ht
    obtain ⟨y, rfl⟩ := readField_eq_copy hread
    refine ⟨copy y f x, ?_, ?_⟩
    · intro g hg
      rw [List.mem_cons, not_or] at hg
      rw [HasDefault, copy_copy_of_ne y x hg.1]
      exact hdefaults g hg.2
    · have hothers : ∀ g ∈ fields, ∀ t, Accepts depth g t (copy x g) →
          Accepts depth g t (copy (copy y f x) g) := by
        intro g hg t ht
        have hne : g ≠ f := fun heq => hf (heq ▸ hg)
        rwa [copy_copy_of_ne y x hne]
      refine .cons ⟨u, ?_, hend⟩ ?_
      · rw [copy_copy]
        exact hread
      · exact ((List.forall₂_and_left _ _).2 ⟨hothers, hvalues⟩).imp fun _ t h => h.1 t h.2

theorem foldl_copy_take {x : Snapshot} {k : Nat} (hdefaults : ∀ f ∉ Field.all.take k, HasDefault x f)
    {fields : List Field} (h : fields.Perm (Field.all.take k)) :
    fields.foldl (fun y f => copy x f y) {} = x := by
  have hnodup : Field.all.Nodup := by decide
  have hdrop : ∀ f ∈ Field.all.drop k, HasDefault x f := fun f hf =>
    hdefaults f fun hmem => List.disjoint_take_drop hnodup (Nat.le_refl k) hmem hf
  have hrest : (Field.all.drop k).foldl (fun y f => copy x f y) {} = {} := by
    generalize Field.all.drop k = more at hdrop
    induction more with
    | nil => rfl
    | cons f more ih =>
      obtain ⟨hf, hmore⟩ := List.forall_mem_cons.1 hdrop
      rw [List.foldl_cons, hf, ih hmore]
  have hall : (Field.all.drop k ++ fields).Perm Field.all := by
    have hperm := (h.append_left (Field.all.drop k)).trans List.perm_append_comm
    rwa [List.take_append_drop] at hperm
  calc fields.foldl (fun y f => copy x f y) {}
    _ = (Field.all.drop k ++ fields).foldl (fun y f => copy x f y) {} := by rw [List.foldl_append, hrest]
    _ = Field.all.foldl (fun y f => copy x f y) {} :=
      hall.foldl_eq' (fun f _ g _ y => copy_comm x y g f) {}
    _ = x := foldl_copy x {}

theorem Accepts.unique {depth : Nat} {f : Field} {t : Text} {a b : Snapshot → Snapshot}
    (ha : Accepts depth f t a) (hb : Accepts depth f t b) : a = b := by
  obtain ⟨u, hread, _⟩ := ha
  obtain ⟨v, hread', _⟩ := hb
  rw [hread] at hread'
  cases hread'
  rfl

/-- There is no choice of a snapshot with these values in its first fields. -/
theorem eq_of_accepts {depth k : Nat} {x y : Snapshot} {values : List Text}
    (hx : ∀ f ∉ Field.all.take k, HasDefault x f) (hy : ∀ f ∉ Field.all.take k, HasDefault y f)
    (hxs : List.Forall₂ (fun f t => Accepts depth f t (copy x f)) (Field.all.take k) values)
    (hys : List.Forall₂ (fun f t => Accepts depth f t (copy y f)) (Field.all.take k) values) : x = y := by
  rw [← foldl_copy_take hx (.refl _), ← foldl_copy_take hy (.refl _)]
  generalize Field.all.take k = fields at hxs hys
  generalize ({} : Snapshot) = z
  induction hxs generalizing z with
  | nil => rfl
  | cons hf _ ih =>
    cases hys with
    | cons hf' hys => rw [List.foldl_cons, List.foldl_cons, hf.unique hf', ih hys]

theorem Form.holds {depth k : Nat} {x : Snapshot} {t : Text} (h : Form depth k x t)
    (hdefaults : ∀ f ∉ Field.all.take k, HasDefault x f) : Holds (depth + 1) t x := by
  cases h with
  | array hvalues ht =>
    have hholds := holds_array (List.take_append_drop k Field.all) hvalues ht
    rwa [foldl_copy_take hdefaults (.refl _)] at hholds
  | object hmembers hperm hgiven ht =>
    have hnodup : (Field.all.take k).Nodup := List.Nodup.sublist (List.take_sublist k _) (by decide)
    have hholds := holds_object hmembers (hperm.nodup_iff.2 hnodup) hgiven ht
    rwa [foldl_copy_take hdefaults hperm] at hholds

/-- Whatever values are acceptable for the first fields, each on its own, they make one snapshot with the
defaults in the other fields, and all its forms are read as this snapshot. The calling frames may be in any
forms that are read as them. An object with acceptable values where a field comes twice is refused. -/
theorem ofJson_forms (depth : Nat) :
    (∀ k values, List.Forall₂ (fun f t => ∃ a, Accepts depth f t a) (Field.all.take k) values →
      ∃ x, (∀ f ∉ Field.all.take k, HasDefault x f) ∧
        List.Forall₂ (fun f t => Accepts depth f t (copy x f)) (Field.all.take k) values ∧
        ∀ t, Form depth k x t → Holds (depth + 1) t x) ∧
      (∀ x frames t, List.Forall₂ (Holds depth) frames x.levels → Encloses .array frames t →
        Accepts (depth + 1) .levels t (copy x .levels)) ∧
      (∀ given es t, Members given es → (∀ g ∈ given, ∃ a, Accepts depth g.1 g.2 a) →
        ¬ (given.map Prod.fst).Nodup → Encloses .object (es.map Property.text) t → Refused (depth + 1) t) ∧
      ∀ t, (∀ x, Holds maxDepth t x ↔ ofJson t = .ok x) ∧
        (Refused maxDepth t → ofJson t = .error .mistyped) := by
  refine ⟨?_, ?_, ?_, fun t => ⟨fun x => holds_iff_ofJson, Refused.ofJson⟩⟩
  · intro k values h
    have hnodup : (Field.all.take k).Nodup := List.Nodup.sublist (List.take_sublist k _) (by decide)
    obtain ⟨x, hdefaults, hvalues⟩ := exists_accepts hnodup h
    exact ⟨x, hdefaults, hvalues, fun t ht => ht.holds hdefaults⟩
  · intro x frames t h ht
    exact accepts_levels h ht
  · intro given es t hmembers hgiven htwice ht
    exact refused_object hmembers hgiven htwice ht

/-- An object without blanks. -/
def objectOf (es : List Property) : Text := Bracket.object.around [] (es.map Property.text)

/-- Values of all fields. The calling frames are the same one in two forms. -/
def sample : Field → Text
  | .instruction => " 96".toList
  | .gas => "21000 ".toList
  | .stack => "[1, 2]".toList
  | .storage => "\x7b\x7d".toList
  | .memory => "[7, 255]".toList
  | .callData => "[ ]".toList
  | .address => "[0,0,0,0,0,0,0,0,0,0,0,0,0,0,0,0,0,0,0,1]".toList
  | .levels => Bracket.array.around [] [Bracket.array.around [] ["7".toList],
      objectOf [.plain Field.pc.name "7".toList]]
  | _ => "7".toList

def sampleMembers : List Property := Field.all.reverse.map fun f => .plain f.name (sample f)

/-- What the values stand for. -/
def sampled : Snapshot where
  pc := 7
  instruction := 96
  gas := 21000
  gasCost := 7
  steps := 7
  newMemSize := 7
  stack := [1, 2]
  memory := [7, 255]
  address := 1
  levels := [{ pc := 7 }, { pc := 7 }]

theorem ofJson_forms_sample :
    ofJson (Bracket.array.around [] (Field.all.map sample)) = .ok sampled ∧
      ofJson (objectOf (.plain "gas_cost".toList "null".toList :: sampleMembers)) = .ok sampled ∧
      ofJson (objectOf (.plain Field.pc.name "7".toList :: sampleMembers)) = .error .mistyped := by
  have hencloses : ∀ bracket items, Encloses bracket items (Bracket.around bracket [] items) :=
    fun bracket items => ⟨[], [], [], .nil, .nil, .nil, by simp⟩
  have hlevels : Accepts 126 .levels (sample .levels) (copy sampled .levels) := by
    have hpc : Accepts 124 .pc "7".toList (copy { pc := 7 } .pc) := ⟨_, rfl, rfl⟩
    obtain ⟨y, hdefaults, hvalues, hforms⟩ := (ofJson_forms 124).1 1 ["7".toList] (.cons ⟨_, hpc⟩ .nil)
    have hothers : ∀ f ∉ Field.all.take 1, HasDefault { pc := 7 } f := by
      intro f hf
      cases f with
      | pc => exact absurd List.mem_cons_self hf
      | _ => rfl
    obtain rfl : y = { pc := 7 } := eq_of_accepts hdefaults hothers hvalues (.cons hpc .nil)
    have harray := hforms _ (.array hvalues (hencloses .array _))
    have hobject := hforms _ (.object (members_plain (fun _ => "7".toList) [.pc]) (.refl _)
      (List.forall_mem_singleton.2 hpc) (hencloses .object _))
    exact (ofJson_forms 125).2.1 sampled _ _ (.cons harray (.cons hobject .nil)) (hencloses .array _)
  have hsample : ∀ f, Accepts 126 f (sample f) (copy sampled f) := by
    intro f
    cases f with
    | levels => exact hlevels
    | _ => exact ⟨_, rfl, rfl⟩
  have hall : List.Forall₂ (fun f t => Accepts 126 f t (copy sampled f)) (Field.all.take 12)
      (Field.all.map sample) :=
    List.forall₂_map_right_iff.2 (List.forall₂_same.2 fun f _ => hsample f)
  obtain ⟨hforms, _, htwice, hwhole⟩ := ofJson_forms 126
  obtain ⟨x, hdefaults, hvalues, hforms⟩ := hforms 12 (Field.all.map sample)
    (hall.imp fun _ _ h => ⟨_, h⟩)
  have hnone : ∀ f ∉ Field.all.take 12, HasDefault sampled f := fun f hf => absurd (Field.mem_all f) hf
  obtain rfl : x = sampled := eq_of_accepts hdefaults hnone hvalues hall
  have hmembers := members_plain sample Field.all.reverse
  refine ⟨((hwhole _).1 sampled).1 (hforms _ (.array hvalues (hencloses .array _))), ?_, ?_⟩
  · have hunknown : Members _ (Property.plain "gas_cost".toList "null".toList :: sampleMembers) :=
      .unknown (Property.named_plain (List.all_eq_true.1 (by decide)) _) (by decide) .null hmembers
    refine ((hwhole _).1 sampled).1 (hforms _ (.object hunknown ?_ ?_ (hencloses .object _)))
    · decide
    · rw [List.forall_mem_map]
      exact fun f _ => hsample f
  · have hpcTwice := members_plain sample (.pc :: Field.all.reverse)
    refine (hwhole _).2 (htwice _ _ _ hpcTwice ?_ ?_ (hencloses .object _))
    · rw [List.forall_mem_map]
      exact fun f _ => ⟨_, hsample f⟩
    · decide

end StepScope.Snapshot
