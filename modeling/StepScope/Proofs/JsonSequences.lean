import StepScope.Proofs.JsonLocality

/-!
Arrays and objects: what is read of them does not depend on what follows, and items that can be read on
their own are read in a row, with blanks where they may stand.
-/

namespace StepScope.Json

/-- On its own the text is read as `a`, and nothing but blanks is left. -/
def Takes {α : Type} (r : Nat → Reader α) (t : Text) (a : α) : Prop :=
  ∃ u, r (t.length + 1) t = .ok (a, u) ∧ readEnd u = .ok ()

theorem readEnd_eq_ok_iff {u : Text} : readEnd u = .ok () ↔ Blank u := by
  have hblank : skipBlank u = [] ↔ Blank u := List.dropWhile_eq_nil_iff
  rw [readEnd, ← hblank]
  split
  · rename_i h
    exact ⟨fun _ => h, fun _ => rfl⟩
  · rename_i h
    exact ⟨nofun, fun h' => absurd h' h⟩

section Tokenwise

variable {α : Type} {r : Nat → Reader α} (hr : Tokenwise r)

include hr

theorem Tokenwise.blank {lead : Text} (h : Blank lead) (limit : Nat) (s : Text) :
    r limit (lead ++ s) = r limit s := by
  rw [← hr.skipBlank, skipBlank_append h, hr.skipBlank]

theorem Takes.front {t : Text} {a : α} (h : Takes r t a) (s : Text) :
    ∃ c s', Json.skipBlank (t ++ s) = c :: s' ∧ c ≠ ']' := by
  obtain ⟨u, hread, _⟩ := h
  obtain ⟨c, s', hfront, hc⟩ := hr.front hread
  exact ⟨c, s' ++ s, skipBlank_append_of_cons hfront s, hc⟩

/-- What is read on its own is read in front of whatever follows a value. -/
theorem Takes.before {t : Text} {a : α} (h : Takes r t a) :
    ∃ u, Blank u ∧ u.length < t.length ∧ ∀ {limit rest}, Ends rest → (t ++ rest).length < limit →
      r limit (t ++ rest) = .ok (a, u ++ rest) := by
  obtain ⟨u, hread, hend⟩ := h
  refine ⟨u, readEnd_eq_ok_iff.1 hend, hr.length hread, ?_⟩
  intro limit rest hrest hlimit
  exact hr.isLocal.append _ hread (fun _ => hrest) hlimit

theorem takes_padded {t lead trail : Text} {a : α} (hlead : Blank lead) (htrail : Blank trail)
    (h : ∀ {limit}, (t ++ trail).length < limit → r limit (t ++ trail) = .ok (a, trail)) :
    Takes r (lead ++ (t ++ trail)) a := by
  refine ⟨trail, ?_, readEnd_eq_ok_iff.2 htrail⟩
  rw [hr.blank hlead]
  apply h
  simp only [List.length_append]
  omega

end Tokenwise

/-! Items -/

def Item.rest : Item → Text
  | .close s => s
  | .value s => s

def Item.followed (rest : Text) : Item → Item
  | .close s => .close (s ++ rest)
  | .value s => .value (s ++ rest)

theorem nextItem_append {first : Bool} {s : Text} {item : Item} (h : nextItem first s = .ok item)
    (rest : Text) :
    item.rest.length ≤ s.length ∧ nextItem first (s ++ rest) = .ok (item.followed rest) := by
  have hle := length_skipBlank s
  unfold nextItem at h
  split at h
  · cases h
  · rename_i c s' heq
    rw [heq, List.length_cons] at hle
    rw [nextItem, skipBlank_append_of_cons heq]
    split at h
    · rename_i hc
      cases h
      refine ⟨Nat.le_of_succ_le hle, ?_⟩
      simp only [if_pos hc]
      rfl
    · rename_i hc
      simp only [if_neg hc]
      split at h
      · rename_i hfirst
        cases h
        refine ⟨hle, ?_⟩
        rw [if_pos hfirst]
        rfl
      · rename_i hfirst
        rw [if_neg hfirst]
        split at h
        · rename_i hcomma
          have hle' := length_skipBlank s'
          split at h
          · cases h
          · rename_i d s'' heq'
            rw [heq', List.length_cons] at hle'
            split at h
            · cases h
            · rename_i hd
              cases h
              refine ⟨?_, ?_⟩
              · simp only [Item.rest, List.length_cons]
                omega
              · rw [if_pos hcomma, skipBlank_append_of_cons heq']
                simp only [if_neg hd]
                rfl
        · cases h

theorem closeArray_append {s u : Text} (h : closeArray s = .ok u) (rest : Text) :
    u.length ≤ s.length ∧ closeArray (s ++ rest) = .ok (u ++ rest) := by
  have hle := length_skipBlank s
  unfold closeArray at h
  split at h
  · cases h
  · rename_i c s' heq
    rw [heq, List.length_cons] at hle
    split at h
    · rename_i hc
      cases h
      refine ⟨Nat.le_of_succ_le hle, ?_⟩
      rw [closeArray, skipBlank_append_of_cons heq]
      simp only [if_pos hc]
    · cases h

theorem readColon_append {s u : Text} (h : readColon s = .ok u) (rest : Text) :
    u.length < s.length ∧ readColon (s ++ rest) = .ok (u ++ rest) := by
  have hle := length_skipBlank s
  unfold readColon at h
  split at h
  · cases h
  · rename_i c s' heq
    rw [heq, List.length_cons] at hle
    split at h
    · rename_i hc
      cases h
      refine ⟨hle, ?_⟩
      rw [readColon, skipBlank_append_of_cons heq]
      simp only [if_pos hc]
    · cases h

theorem readItems_append {α : Type} {item : Nat → Reader α} (hitem : Tokenwise item) {limit steps : Nat}
    {first : Bool} {t u : Text} {as : List α} (h : readItems (item limit) steps first t = .ok (as, u)) :
    u.length ≤ t.length ∧ ∀ {limit' steps' rest}, (u = [] → Ends rest) →
      (t ++ rest).length < limit' → (t ++ rest).length < steps' →
        readItems (item limit') steps' first (t ++ rest) = .ok (as, u ++ rest) := by
  induction steps generalizing first t as with
  | zero => cases h
  | succ steps ih =>
    obtain ⟨next, hnext, h⟩ := bind_eq_ok h
    have hle := (nextItem_append hnext []).1
    cases next with
    | close s =>
      cases h
      refine ⟨hle, ?_⟩
      intro limit' steps' rest _ _ hsteps
      obtain ⟨steps', rfl⟩ := Nat.exists_eq_succ_of_ne_zero (Nat.ne_zero_of_lt hsteps)
      simp only [readItems, (nextItem_append hnext rest).2, bind, Except.bind]
      rfl
    | value s =>
      obtain ⟨⟨a, s'⟩, hread, h⟩ := bind_eq_ok h
      obtain ⟨⟨as', u'⟩, hitems, h⟩ := bind_eq_ok h
      cases h
      obtain ⟨hle', happend⟩ := ih hitems
      have hlt := hitem.length hread
      change s.length ≤ t.length at hle
      refine ⟨by omega, ?_⟩
      intro limit' steps' rest hends hlimit hsteps
      obtain ⟨steps', rfl⟩ := Nat.exists_eq_succ_of_ne_zero (Nat.ne_zero_of_lt hsteps)
      rw [List.length_append] at hlimit hsteps
      have hend : s' = [] → Ends rest := ends_of_length_le hle' hends
      have hread' : item limit' (s ++ rest) = .ok (a, s' ++ rest) := by
        apply hitem.isLocal.append limit hread hend
        rw [List.length_append]
        omega
      have hitems' : readItems (item limit') steps' false (s' ++ rest) = .ok (as', u ++ rest) := by
        apply happend hends
        all_goals
          rw [List.length_append]
          omega
      simp only [readItems, (nextItem_append hnext rest).2, bind, Except.bind, Item.followed, hread', hitems']

theorem local_readItems {α : Type} {item : Nat → Reader α} (h : Tokenwise item) (first : Bool) :
    Local fun limit => readItems (item limit) limit first :=
  ⟨fun _ _ _ _ hread => (readItems_append h hread).1, fun _ _ _ _ _ _ hread hends hlimit =>
    (readItems_append h hread).2 hends hlimit hlimit⟩

/-- An open array where either it closes or one more item follows. -/
theorem Local.nextItem {α : Type} {close value : Nat → Reader α} (hclose : Local close)
    (hvalue : Local value) (first : Bool) : Local fun limit s => Json.nextItem first s >>= fun item =>
      match item with
      | .close s => close limit s
      | .value s => value limit s := by
  constructor
  · intro limit t a u hread
    obtain ⟨item, hitem, hread⟩ := bind_eq_ok hread
    have hle := (nextItem_append hitem []).1
    cases item with
    | close s => exact Nat.le_trans (hclose.length limit hread) hle
    | value s => exact Nat.le_trans (hvalue.length limit hread) hle
  · intro limit limit' t a u rest hread hends hlimit
    obtain ⟨item, hitem, hread⟩ := bind_eq_ok hread
    obtain ⟨hle, happend⟩ := nextItem_append hitem rest
    have hlimit' : (item.rest ++ rest).length < limit' := by
      rw [List.length_append] at hlimit ⊢
      omega
    simp only [happend]
    cases item with
    | close s => exact hclose.append limit hread hends hlimit'
    | value s => exact hvalue.append limit hread hends hlimit'

/-- What closes something is local if it is found whatever follows. -/
theorem Local.of_close {α : Type} {close : Text → Except Fault Text}
    (h : ∀ {s u}, close s = .ok u → ∀ rest, u.length ≤ s.length ∧ close (s ++ rest) = .ok (u ++ rest))
    (a : α) :
    Local fun _ s => (close s).map fun u => (a, u) := by
  constructor
  · intro limit t b u hread
    obtain ⟨u', hclose, hpair⟩ := map_eq_ok hread
    cases hpair
    exact (h hclose []).1
  · intro limit limit' t b u rest hread _ _
    obtain ⟨u', hclose, hpair⟩ := map_eq_ok hread
    cases hpair
    simp only [(h hclose rest).2]
    rfl

/-- Items in brackets, with blanks where they may stand. -/
def Encloses (bracket : Bracket) (items : List Text) (t : Text) : Prop :=
  ∃ lead gap trail, Blank lead ∧ Blank gap ∧ Blank trail ∧ t = lead ++ (bracket.around gap items ++ trail)

theorem nextItem_blank {u : Text} (h : Blank u) (first : Bool) (s : Text) :
    nextItem first (u ++ s) = nextItem first s := by
  rw [nextItem, nextItem, skipBlank_append h]

theorem nextItem_closing {u : Text} (h : Blank u) (first : Bool) (rest : Text) :
    nextItem first (u ++ ']' :: rest) = .ok (.close rest) := by
  have hclosing : isBlank ']' = false := rfl
  rw [nextItem_blank h, nextItem, skipBlank_cons hclosing]
  rfl

theorem length_item_le (t u : Text) (first : Bool) (ts : List Text) (s : Text) :
    (t ++ (chain false ts ++ s)).length ≤ (u ++ (chain first (t :: ts) ++ s)).length := by
  cases first <;> simp [chain]
  omega

/-- The items of an array that are each read on their own are read in a row. -/
theorem readItems_takes {α : Type} {item : Nat → Reader α} (hitem : Tokenwise item) {ts : List Text}
    {as : List α} (h : List.Forall₂ (Takes item) ts as) {limit steps : Nat} (first : Bool) {u : Text} (hu : Blank u)
    (rest : Text) (hlimit : (u ++ (chain first ts ++ ']' :: rest)).length < limit)
    (hsteps : (u ++ (chain first ts ++ ']' :: rest)).length < steps) :
    readItems (item limit) steps first (u ++ (chain first ts ++ ']' :: rest)) = .ok (as, rest) := by
  induction h generalizing steps first u with
  | nil =>
    obtain ⟨steps, rfl⟩ := Nat.exists_eq_succ_of_ne_zero (Nat.ne_zero_of_lt hsteps)
    simp only [chain, List.nil_append, readItems, nextItem_closing hu]
    rfl
  | @cons t a ts as ht _ ih =>
    obtain ⟨steps, rfl⟩ := Nat.exists_eq_succ_of_ne_zero (Nat.ne_zero_of_lt hsteps)
    obtain ⟨u', hu', hshort, hread⟩ := ht.before hitem
    have hle := length_item_le t u first ts (']' :: rest)
    have hvalue : item limit (skipBlank (t ++ (chain false ts ++ ']' :: rest))) =
        .ok (a, u' ++ (chain false ts ++ ']' :: rest)) := by
      rw [hitem.skipBlank]
      exact hread (ends_chain (.inl rfl) ts rest) (Nat.lt_of_le_of_lt hle hlimit)
    rw [List.length_append] at hle
    have hitems : readItems (item limit) steps false (u' ++ (chain false ts ++ ']' :: rest)) =
        .ok (as, rest) := by
      apply ih false hu'
      all_goals
        rw [List.length_append]
        omega
    rw [readItems, nextItem_blank hu, nextItem_front (ht.front hitem)]
    simp only [bind, Except.bind, hvalue, hitems]

/-! Members -/

def Member.rest : Member → Text
  | .close s => s
  | .key _ s => s

def Member.followed (rest : Text) : Member → Member
  | .close s => .close (s ++ rest)
  | .key name s => .key name (s ++ rest)

theorem readKey_append {s : Text} {member : Member} (h : readKey s = .ok member) (rest : Text) :
    member.rest.length ≤ s.length ∧ readKey (s ++ rest) = .ok (member.followed rest) := by
  cases s with
  | nil => cases h
  | cons c s =>
    rw [readKey] at h
    split at h
    · rename_i hc
      obtain ⟨⟨name, u⟩, hread, hmember⟩ := map_eq_ok h
      cases hmember
      obtain ⟨hlength, happend⟩ := readText_append hread rest
      refine ⟨Nat.le_succ_of_le (Nat.le_of_lt hlength), ?_⟩
      rw [List.cons_append, readKey, if_pos hc, happend]
      rfl
    · cases h

theorem nextMember_append {first : Bool} {s : Text} {member : Member}
    (h : nextMember first s = .ok member) (rest : Text) :
    member.rest.length ≤ s.length ∧ nextMember first (s ++ rest) = .ok (member.followed rest) := by
  have hle := length_skipBlank s
  unfold nextMember at h
  split at h
  · cases h
  · rename_i c s' heq
    rw [heq, List.length_cons] at hle
    rw [nextMember, skipBlank_append_of_cons heq]
    split at h
    · rename_i hc
      cases h
      refine ⟨Nat.le_of_succ_le hle, ?_⟩
      simp only [if_pos hc]
      rfl
    · rename_i hc
      simp only [if_neg hc]
      split at h
      · rename_i hfirst
        obtain ⟨hlength, happend⟩ := readKey_append h rest
        rw [if_pos hfirst]
        exact ⟨Nat.le_trans hlength hle, happend⟩
      · rename_i hfirst
        rw [if_neg hfirst]
        split at h
        · rename_i hcomma
          have hle' := length_skipBlank s'
          obtain ⟨hlength, happend⟩ := readKey_append h rest
          rw [if_pos hcomma]
          refine ⟨by omega, ?_⟩
          cases heq' : skipBlank s' with
          | nil =>
            rw [heq'] at h
            cases h
          | cons d s'' =>
            rw [heq'] at happend
            rw [skipBlank_append_of_cons heq']
            exact happend
        · cases h

theorem readMembers_append {κ α : Type} {key : Text → Except Fault κ} {item : Nat → Reader α}
    (hitem : Tokenwise item) {limit steps : Nat} {first : Bool} {t u : Text} {members : List (κ × α)}
    (h : readMembers key (item limit) steps first t = .ok (members, u)) :
    u.length ≤ t.length ∧ ∀ {limit' steps' rest}, (u = [] → Ends rest) →
      (t ++ rest).length < limit' → (t ++ rest).length < steps' →
        readMembers key (item limit') steps' first (t ++ rest) = .ok (members, u ++ rest) := by
  induction steps generalizing first t members with
  | zero => cases h
  | succ steps ih =>
    obtain ⟨next, hnext, h⟩ := bind_eq_ok h
    have hle := (nextMember_append hnext []).1
    cases next with
    | close s =>
      cases h
      refine ⟨hle, ?_⟩
      intro limit' steps' rest _ _ hsteps
      obtain ⟨steps', rfl⟩ := Nat.exists_eq_succ_of_ne_zero (Nat.ne_zero_of_lt hsteps)
      simp only [readMembers, (nextMember_append hnext rest).2, bind, Except.bind]
      rfl
    | key name s =>
      obtain ⟨k, hkey, h⟩ := bind_eq_ok h
      obtain ⟨s', hcolon, h⟩ := bind_eq_ok h
      obtain ⟨⟨a, s''⟩, hread, h⟩ := bind_eq_ok h
      obtain ⟨⟨members', u'⟩, hmembers, h⟩ := bind_eq_ok h
      cases h
      obtain ⟨hle', happend⟩ := ih hmembers
      have hlt := hitem.length hread
      have hcolonLe := (readColon_append hcolon []).1
      change s.length ≤ t.length at hle
      refine ⟨by omega, ?_⟩
      intro limit' steps' rest hends hlimit hsteps
      obtain ⟨steps', rfl⟩ := Nat.exists_eq_succ_of_ne_zero (Nat.ne_zero_of_lt hsteps)
      rw [List.length_append] at hlimit hsteps
      have hend : s'' = [] → Ends rest := ends_of_length_le hle' hends
      have hread' : item limit' (s' ++ rest) = .ok (a, s'' ++ rest) := by
        apply hitem.isLocal.append limit hread hend
        rw [List.length_append]
        omega
      have hmembers' : readMembers key (item limit') steps' false (s'' ++ rest) =
          .ok (members', u ++ rest) := by
        apply happend hends
        all_goals
          rw [List.length_append]
          omega
      simp only [readMembers, (nextMember_append hnext rest).2, bind, Except.bind, Member.followed, hkey,
        (readColon_append hcolon rest).2, hread', hmembers']

theorem local_readMembers {κ α : Type} {item : Nat → Reader α} (h : Tokenwise item)
    (key : Text → Except Fault κ) (first : Bool) :
    Local fun limit => readMembers key (item limit) limit first :=
  ⟨fun _ _ _ _ hread => (readMembers_append h hread).1, fun _ _ _ _ _ _ hread hends hlimit =>
    (readMembers_append h hread).2 hends hlimit hlimit⟩

/-- The member's key is spelled so that it has this name, with blanks where they may stand. -/
structure Property.Named (e : Property) (name : Text) : Prop where
  lead : Blank e.lead
  key : readText (e.key ++ ['"']) = .ok (name, [])
  gap : Blank e.gap

/-- A member without blanks. -/
def Property.plain (key value : Text) : Property := ⟨[], key, [], value⟩

theorem Property.named_plain {key : Text} (h : ∀ c ∈ key, isPlain c = true) (value : Text) :
    (Property.plain key value).Named key :=
  ⟨.nil, readText_plain h [], .nil⟩

theorem nextMember_blank {u : Text} (h : Blank u) (first : Bool) (s : Text) :
    nextMember first (u ++ s) = nextMember first s := by
  rw [nextMember, nextMember, skipBlank_append h]

theorem Property.Named.nextMember {e : Property} {name : Text} (h : e.Named name) (first : Bool)
    (ts : List Text) (s : Text) :
    nextMember first (chain first (e.text :: ts) ++ s) =
      .ok (.key name (e.gap ++ ':' :: (e.value ++ (chain false ts ++ s)))) := by
  have hquote : isBlank '"' = false := rfl
  have hcomma : isBlank ',' = false := rfl
  have hfront : ∀ s, skipBlank (e.text ++ s) = '"' :: (e.key ++ '"' :: (e.gap ++ ':' :: (e.value ++ s))) := by
    intro s
    rw [e.text_append, skipBlank_append h.lead, skipBlank_cons hquote]
  have hkey : ∀ s, readKey ('"' :: (e.key ++ '"' :: s)) = .ok (.key name s) := by
    intro s
    have hread := (readText_append h.key s).2
    rw [List.append_assoc] at hread
    simp only [readKey, if_true]
    change (readText (e.key ++ (['"'] ++ s))).map _ = _
    rw [hread]
    rfl
  cases first with
  | true =>
    have htext : chain true (e.text :: ts) ++ s = e.text ++ (chain false ts ++ s) := by simp [chain]
    rw [htext, Json.nextMember, hfront]
    exact hkey _
  | false =>
    have htext : chain false (e.text :: ts) ++ s = ',' :: (e.text ++ (chain false ts ++ s)) := by simp [chain]
    rw [htext, Json.nextMember, skipBlank_cons hcomma]
    simp only [hfront]
    exact hkey _

theorem Property.length_value_lt (e : Property) (u : Text) (first : Bool) (ts : List Text) (s : Text) :
    (e.value ++ (chain false ts ++ s)).length < (u ++ (chain first (e.text :: ts) ++ s)).length := by
  cases first <;> simp [chain, text] <;> omega

theorem Property.Named.readColon {e : Property} {name : Text} (h : e.Named name) (s : Text) :
    readColon (e.gap ++ ':' :: s) = .ok s := by
  have hcolon : isBlank ':' = false := rfl
  rw [Json.readColon, skipBlank_append h.gap, skipBlank_cons hcolon]
  rfl

theorem nextMember_closing {u : Text} (h : Blank u) (first : Bool) (rest : Text) :
    nextMember first (u ++ '\x7d' :: rest) = .ok (.close rest) := by
  have hclosing : isBlank '\x7d' = false := rfl
  rw [nextMember_blank h, nextMember, skipBlank_cons hclosing]
  rfl

/-- The members of an object whose keys mean something and whose values are each read on their own are read in
a row. -/
theorem readMembers_takes {κ α : Type} {key : Text → Except Fault κ} {item : Nat → Reader α}
    (hitem : Tokenwise item) {es : List Property} {members : List (κ × α)}
    (h : List.Forall₂ (fun e member => (∃ name, e.Named name ∧ key name = .ok member.1) ∧
      Takes item e.value member.2) es members)
    {limit steps : Nat} (first : Bool) {u : Text} (hu : Blank u) (rest : Text)
    (hlimit : (u ++ (chain first (es.map Property.text) ++ '\x7d' :: rest)).length < limit)
    (hsteps : (u ++ (chain first (es.map Property.text) ++ '\x7d' :: rest)).length < steps) :
    readMembers key (item limit) steps first (u ++ (chain first (es.map Property.text) ++ '\x7d' :: rest)) =
      .ok (members, rest) := by
  induction h generalizing steps first u with
  | nil =>
    obtain ⟨steps, rfl⟩ := Nat.exists_eq_succ_of_ne_zero (Nat.ne_zero_of_lt hsteps)
    simp only [List.map_nil, chain, List.nil_append, readMembers, nextMember_closing hu]
    rfl
  | @cons e member es members hmember _ ih =>
    obtain ⟨⟨name, hname, hkey⟩, hvalue⟩ := hmember
    obtain ⟨steps, rfl⟩ := Nat.exists_eq_succ_of_ne_zero (Nat.ne_zero_of_lt hsteps)
    obtain ⟨u', hu', hshort, hread⟩ := hvalue.before hitem
    have hlt := e.length_value_lt u first (es.map Property.text) ('\x7d' :: rest)
    rw [List.map_cons] at hlimit hsteps ⊢
    have hvalue' := hread (ends_chain (.inr rfl) (es.map Property.text) rest) (Nat.lt_trans hlt hlimit)
    rw [List.length_append] at hlt
    have hmembers : readMembers key (item limit) steps false
        (u' ++ (chain false (es.map Property.text) ++ '\x7d' :: rest)) = .ok (members, rest) := by
      apply ih false hu'
      all_goals
        rw [List.length_append]
        omega
    rw [readMembers, nextMember_blank hu, hname.nextMember]
    simp only [bind, Except.bind, hkey, hname.readColon, hvalue', hmembers]

end StepScope.Json
