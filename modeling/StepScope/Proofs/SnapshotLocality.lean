import StepScope.Proofs.JsonHalting
import StepScope.Proofs.JsonSkipping
import StepScope.Snapshot.Reader

/-!
The values of a snapshot's fields are read the same way alone and in their place, and so are whole
snapshots, their calling frames included.
-/

namespace StepScope.Snapshot

open Json

theorem tokenwise_readBelow (bound : Nat) : Tokenwise fun _ => readBelow bound := by
  refine .of_bind _ ?_
  intro token
  cases token with
  | natural n => exact .ite (n < bound) (.pure n) (.error .mistyped)
  | _ => exact .error .mistyped

theorem tokenwise_readCounter : Tokenwise fun _ => readCounter :=
  (tokenwise_readBelow UInt64.size).map UInt64.ofNat

theorem tokenwise_readByte : Tokenwise fun _ => readByte :=
  (tokenwise_readBelow UInt8.size).map UInt8.ofNat

theorem tokenwise_readWord (depth : Nat) : Tokenwise fun _ => readWord depth := by
  refine .of_bind _ ?_
  intro token
  cases token with
  | natural n => exact .pure (BitVec.ofNat 256 n)
  | text t =>
    cases h : WordText.read? t with
    | none => simpa only [h] using Local.error .mistyped
    | some w => simpa only [h] using Local.pure w
  | openArray => exact .error (bracketFault depth)
  | openObject => exact .error (bracketFault depth)
  | _ => exact .error .mistyped

theorem tokenwise_readArray {α : Type} {item : Nat → Reader α} (h : Tokenwise item) (depth : Nat) :
    Tokenwise fun limit => readArray limit depth (item limit) := by
  refine .of_bind _ ?_
  intro token
  cases token with
  | openArray => exact .ite (depth = 0) (.error .malformed) (local_readItems h true)
  | _ => exact .error .mistyped

theorem tokenwise_readStorage (depth : Nat) : Tokenwise fun limit => readStorage limit depth := by
  have hmembers := local_readMembers (tokenwise_readWord (depth - 1)) slotKey true
  refine .of_bind _ ?_
  intro token
  cases token with
  | openObject => exact .ite (depth = 0) (.error .malformed) (hmembers.map Keyed.ofList)
  | _ => exact .error .mistyped

theorem tokenwise_readBytes (depth : Nat) : Tokenwise fun limit => readBytes limit depth := by
  refine .of_bind _ ?_
  intro token
  cases token with
  | text t =>
    cases h : Hex.read (Text.utf8 (Hex.dropMark t)) with
    | error flaw => simpa only [h] using Local.error .mistyped
    | ok bytes => simpa only [h] using Local.pure bytes
  | openArray => exact .ite (depth = 0) (.error .malformed) (local_readItems tokenwise_readByte true)
  | openObject => exact .error (bracketFault depth)
  | _ => exact .error .mistyped

/-! Addresses -/

theorem local_readCount (count : Nat) (first : Bool) : Local fun _ => readCount count first := by
  induction count generalizing first with
  | zero => exact .pure []
  | succ count ih =>
    have hbyte := tokenwise_readByte.isLocal.bind fun b => (ih false).map fun bytes => b :: bytes
    refine (Local.nextItem (.error .mistyped) hbyte first).congr ?_
    intro _ s
    cases hnext : nextItem first s with
    | error fault => simp only [readCount, hnext, bind, Except.bind]
    | ok item =>
      simp only [readCount, hnext, bind, Except.bind]
      cases item with
      | close s => rfl
      | value s => cases readByte s <;> rfl

theorem readByte_eq_ok_iff {s u : Text} {b : UInt8} :
    readByte s = .ok (b, u) ↔
      ∃ n < UInt8.size, readToken s = .ok (.natural n, u) ∧ UInt8.ofNat n = b := by
  constructor
  · intro h
    obtain ⟨⟨n, u'⟩, hbelow, hpair⟩ := map_eq_ok h
    cases hpair
    obtain ⟨⟨token, s'⟩, htoken, hbelow⟩ := bind_eq_ok hbelow
    cases token with
    | natural m =>
      simp only at hbelow
      split at hbelow
      · rename_i hn
        cases hbelow
        exact ⟨n, hn, htoken, rfl⟩
      · cases hbelow
    | _ => cases hbelow
  · rintro ⟨n, hn, htoken, rfl⟩
    simp only [readByte, readBelow, htoken, bind, Except.bind, if_pos hn]
    rfl

theorem closeArray_skipBlank (s : Text) : closeArray (skipBlank s) = closeArray s := by
  rw [closeArray, closeArray, skipBlank_skipBlank]

/-- Behind a comma in front of the end of an address. -/
def closeExtra (s : Text) : Except Fault Text :=
  match readByte s with
  | .ok _ => .error .mistyped
  | .error _ => (halt s).elim (.error .malformed) closeArray

theorem closeExtra_eq_ok {s u : Text} (h : closeExtra s = .ok u) :
    (∃ fault, readByte s = .error fault) ∧ ∃ stop, halt s = some stop ∧ closeArray stop = .ok u := by
  unfold closeExtra at h
  split at h
  · cases h
  · rename_i fault hbyte
    refine ⟨⟨fault, hbyte⟩, ?_⟩
    cases hhalt : halt s with
    | none =>
      rw [hhalt] at h
      cases h
    | some stop =>
      rw [hhalt] at h
      exact ⟨stop, rfl, h⟩

theorem closeExtra_append {s u : Text} (h : closeExtra s = .ok u) (rest : Text) :
    u.length ≤ s.length ∧ closeExtra (s ++ rest) = .ok (u ++ rest) := by
  obtain ⟨⟨fault, hbyte⟩, stop, hhalt, hclose⟩ := closeExtra_eq_ok h
  obtain ⟨hle, hclose'⟩ := closeArray_append hclose rest
  have hne : stop ≠ [] := by
    rintro rfl
    cases hclose
  -- Nothing that begins with an opening bracket is at the end of an array.
  have hbracket : ∀ u, readToken s ≠ .ok (.openArray, u) ∧ readToken s ≠ .ok (.openObject, u) := by
    have hopening : ∀ {token u}, readToken s = .ok (token, u) → halt s = some s → False := by
      intro token u htoken hself
      obtain ⟨c, s', hfront, hc⟩ := readToken_front htoken
      rw [hself] at hhalt
      cases hhalt
      simp only [closeArray, hfront, if_neg hc] at hclose
      cases hclose
    intro u
    constructor
    · intro htoken
      exact hopening htoken (by rw [halt, htoken])
    · intro htoken
      exact hopening htoken (by rw [halt, htoken])
  obtain ⟨hhalt', htoken⟩ := halt_append hhalt hne hbracket rest
  refine ⟨Nat.le_trans hle (shortens_halt hhalt), ?_⟩
  have hbyte' : ∃ fault', readByte (s ++ rest) = .error fault' := by
    cases hread : readByte (s ++ rest) with
    | error fault' => exact ⟨fault', rfl⟩
    | ok found =>
      obtain ⟨b, u'⟩ := found
      obtain ⟨n, hn, hnatural, _⟩ := readByte_eq_ok_iff.1 hread
      rcases htoken with ⟨token, htoken, htoken'⟩ | ⟨_, fault', _, hfault⟩
      · rw [htoken'] at hnatural
        cases hnatural
        rw [readByte_eq_ok_iff.2 ⟨n, hn, htoken, rfl⟩] at hbyte
        cases hbyte
      · rw [hfault] at hnatural
        cases hnatural
  obtain ⟨fault', hbyte'⟩ := hbyte'
  simp only [closeExtra, hbyte', hhalt']
  exact hclose'

/-- One more value that is no byte is passed over as far as reading it goes, which is as far in front of
more text. -/
theorem closeAddress_append {s u : Text} (h : closeAddress s = .ok u) (rest : Text) :
    u.length ≤ s.length ∧ closeAddress (s ++ rest) = .ok (u ++ rest) := by
  have hle := length_skipBlank s
  unfold closeAddress at h
  split at h
  · rename_i s' heq
    have hle' := length_skipBlank s'
    rw [heq, List.length_cons] at hle
    rw [closeAddress, skipBlank_append_of_cons heq]
    split at h
    · rename_i s'' heq'
      rw [heq', List.length_cons] at hle'
      cases h
      refine ⟨by omega, ?_⟩
      simp only [skipBlank_append_of_cons heq']
    · rename_i hclosing
      have hextra : closeExtra (skipBlank s') = .ok u := h
      cases heq' : skipBlank s' with
      | nil =>
        rw [heq'] at hextra
        cases hextra
      | cons c s'' =>
        rw [heq'] at hextra hle'
        have hc : c ≠ ']' := fun hc => hclosing s'' (hc ▸ heq')
        obtain ⟨hlength, happend⟩ := closeExtra_append hextra rest
        refine ⟨by omega, ?_⟩
        simp only [skipBlank_append_of_cons heq']
        split
        · rename_i hcons
          exact absurd (List.cons.inj hcons).1 hc
        · exact happend
  · rename_i hcomma
    rw [closeArray_skipBlank] at h
    obtain ⟨hlength, happend⟩ := closeArray_append h rest
    refine ⟨hlength, ?_⟩
    cases heq : skipBlank s with
    | nil =>
      rw [closeArray, heq] at h
      cases h
    | cons c s' =>
      have hc : c ≠ ',' := fun hc => hcomma s' (hc ▸ heq)
      rw [← closeArray_skipBlank, skipBlank_append_of_cons heq] at happend
      rw [closeAddress, skipBlank_append_of_cons heq]
      split
      · rename_i hcons
        exact absurd (List.cons.inj hcons).1 hc
      · exact happend

theorem tokenwise_readAddress (depth : Nat) : Tokenwise fun _ => readAddress depth := by
  have hbytes := (local_readCount 20 true).bind fun bytes =>
    Local.of_close closeAddress_append (Address.ofBytes bytes)
  refine .of_bind _ ?_
  intro token
  cases token with
  | text t =>
    cases h : Address.read t with
    | error flaw => simpa only [h] using Local.error .mistyped
    | ok a => simpa only [h] using Local.pure a
  | openArray =>
    refine .ite (depth = 0) (.error .malformed) (hbytes.congr ?_)
    intro _ s
    cases readCount 20 true s with
    | error fault => rfl
    | ok found => cases h : closeAddress found.2 <;> simp only [bind, Except.bind, h] <;> rfl
  | openObject => exact .error (bracketFault depth)
  | _ => exact .error .mistyped

/-! Fields -/

theorem tokenwise_readField {frames : Nat → Reader (List Snapshot)} (h : Tokenwise frames) (depth : Nat)
    (f : Field) : Tokenwise fun limit => readField limit depth (frames limit) f := by
  cases f with
  | pc => exact tokenwise_readCounter.map fun n (x : Snapshot) => { x with pc := n }
  | instruction => exact tokenwise_readByte.map fun b (x : Snapshot) => { x with instruction := b }
  | gas => exact tokenwise_readCounter.map fun n (x : Snapshot) => { x with gas := n }
  | gasCost => exact tokenwise_readCounter.map fun n (x : Snapshot) => { x with gasCost := n }
  | steps => exact tokenwise_readCounter.map fun n (x : Snapshot) => { x with steps := n }
  | newMemSize => exact tokenwise_readCounter.map fun n (x : Snapshot) => { x with newMemSize := n }
  | stack =>
    exact (tokenwise_readArray (tokenwise_readWord (depth - 1)) depth).map fun words (x : Snapshot) =>
      { x with stack := words }
  | storage => exact (tokenwise_readStorage depth).map fun slots (x : Snapshot) => { x with storage := slots }
  | memory => exact (tokenwise_readBytes depth).map fun bytes (x : Snapshot) => { x with memory := bytes }
  | callData => exact (tokenwise_readBytes depth).map fun bytes (x : Snapshot) => { x with callData := bytes }
  | address => exact (tokenwise_readAddress depth).map fun a (x : Snapshot) => { x with address := a }
  | levels => exact h.map fun levels (x : Snapshot) => { x with levels := levels }

/-- The members of an open object are read up to the same place, whatever follows. -/
structure ReadsNamed (field : Nat → Field → Reader (Snapshot → Snapshot)) (seen : List Field) (first : Bool)
    (x y : Snapshot) (t u : Text) : Prop where
  length : u.length ≤ t.length
  append : ∀ {limit steps rest}, (u = [] → Ends rest) → (t ++ rest).length < limit →
    (t ++ rest).length < steps →
      readNamed (skipValue limit) (field limit) steps seen first x (t ++ rest) = .ok (y, u ++ rest)

/-- One member takes the text from `s` to `s'`, and the next one is looked for from there. -/
theorem ReadsNamed.step {field : Nat → Field → Reader (Snapshot → Snapshot)} {seen seen' : List Field}
    {first : Bool} {x x' y : Snapshot} {t s s' u : Text}
    (h : ReadsNamed field seen' false x' y s' u) (hvalue : s.length < t.length) (hshort : s'.length ≤ s.length)
    (hread : ∀ {limit steps rest}, (s' = [] → Ends rest) → (s ++ rest).length < limit →
      readNamed (skipValue limit) (field limit) (steps + 1) seen first x (t ++ rest) =
        readNamed (skipValue limit) (field limit) steps seen' false x' (s' ++ rest)) :
    ReadsNamed field seen first x y t u := by
  have hle := h.length
  refine ⟨by omega, ?_⟩
  intro limit steps rest hends hlimit hsteps
  obtain ⟨steps, rfl⟩ := Nat.exists_eq_succ_of_ne_zero (Nat.ne_zero_of_lt hsteps)
  rw [List.length_append] at hlimit hsteps
  have hlimit' : (s ++ rest).length < limit := by
    rw [List.length_append]
    omega
  rw [hread (ends_of_length_le hle hends) hlimit']
  apply h.append hends
  all_goals
    rw [List.length_append]
    omega

section Fields

variable {field : Nat → Field → Reader (Snapshot → Snapshot)}
  (hfield : ∀ f, Tokenwise fun limit => field limit f)

include hfield

theorem local_readPositional (fields : List Field) (first : Bool) (x : Snapshot) :
    Local fun limit => readPositional (field limit) fields first x := by
  induction fields generalizing first x with
  | nil => exact .of_close closeArray_append x
  | cons f fields ih =>
    have hvalue := (hfield f).isLocal.bind fun assign => ih false (assign x)
    refine (Local.nextItem (.pure x) hvalue first).congr ?_
    intro limit s
    cases hnext : nextItem first s with
    | error fault => simp only [readPositional, hnext, bind, Except.bind]
    | ok item => cases item <;> simp only [readPositional, hnext, bind, Except.bind]

theorem readsNamed_of_readNamed {limit steps : Nat} {seen : List Field} {first : Bool} {x y : Snapshot}
    {t u : Text}
    (h : readNamed (skipValue limit) (field limit) steps seen first x t = .ok (y, u)) :
    ReadsNamed field seen first x y t u := by
  induction steps generalizing seen first x t with
  | zero => cases h
  | succ steps ih =>
    obtain ⟨next, hnext, h⟩ := bind_eq_ok h
    have hle := (nextMember_append hnext []).1
    cases next with
    | close s =>
      cases h
      refine ⟨hle, ?_⟩
      intro limit steps rest _ _ hsteps
      obtain ⟨steps, rfl⟩ := Nat.exists_eq_succ_of_ne_zero (Nat.ne_zero_of_lt hsteps)
      simp only [readNamed, (nextMember_append hnext rest).2, bind, Except.bind]
      rfl
    | key name s =>
      change s.length ≤ t.length at hle
      cases hname : Field.ofName? name with
      | none =>
        simp only [hname] at h
        obtain ⟨s', hcolon, h⟩ := bind_eq_ok h
        obtain ⟨s'', hskip, h⟩ := bind_eq_ok h
        obtain ⟨hshort, hskip'⟩ := skipValue_append hskip
        refine (ih h).step (Nat.lt_of_lt_of_le (readColon_append hcolon []).1 hle) hshort ?_
        intro limit steps rest hend hlimit
        simp only [readNamed, (nextMember_append hnext rest).2, bind, Except.bind, Member.followed, hname,
          (readColon_append hcolon rest).2, hskip' hend hlimit]
      | some f =>
        simp only [hname] at h
        split at h
        · cases h
        · rename_i hseen
          obtain ⟨s', hcolon, h⟩ := bind_eq_ok h
          obtain ⟨⟨assign, s''⟩, hread, h⟩ := bind_eq_ok h
          refine (ih h).step (Nat.lt_of_lt_of_le (readColon_append hcolon []).1 hle)
            (Nat.le_of_lt ((hfield f).length hread)) ?_
          intro limit steps rest hend hlimit
          have hread' : field limit f (s' ++ rest) = .ok (assign, s'' ++ rest) :=
            (hfield f).isLocal.append _ hread hend hlimit
          simp only [readNamed, (nextMember_append hnext rest).2, bind, Except.bind, Member.followed, hname,
            if_neg hseen, (readColon_append hcolon rest).2, hread']

theorem local_readNamed (seen : List Field) (first : Bool) (x : Snapshot) :
    Local fun limit => readNamed (skipValue limit) (field limit) limit seen first x :=
  ⟨fun _ _ _ _ hread => (readsNamed_of_readNamed hfield hread).length, fun _ _ _ _ _ _ hread hends hlimit =>
    (readsNamed_of_readNamed hfield hread).append hends hlimit hlimit⟩

end Fields

/-! Snapshots -/

theorem tokenwise_readNone : Tokenwise fun _ => readNone := by
  refine .of_bind _ ?_
  intro token
  cases token <;> exact .error _

theorem tokenwise_readWith {frames : Nat → Reader (List Snapshot)} (h : Tokenwise frames) (depth : Nat) :
    Tokenwise fun limit => readWith limit depth (frames limit) := by
  have hfield := tokenwise_readField h depth
  refine .of_bind _ ?_
  intro token
  cases token with
  | openArray => exact local_readPositional hfield Field.all true {}
  | openObject => exact local_readNamed hfield [] true {}
  | _ => exact .error .mistyped

/-- Reads the calling frames of a snapshot inside its bracket. -/
def readFrames (limit depth : Nat) : Reader (List Snapshot) := readArray limit depth (read limit (depth - 1))

theorem read_succ (limit depth : Nat) :
    read limit (depth + 1) = readWith limit depth (readFrames limit depth) := by
  cases depth <;> rfl

theorem tokenwise_read (depth : Nat) : Tokenwise fun limit => read limit depth := by
  induction depth using Nat.strong_induction_on with
  | h depth ih =>
    cases depth with
    | zero => exact tokenwise_readNone
    | succ depth =>
      have hframes : Tokenwise fun limit => readFrames limit depth :=
        tokenwise_readArray (ih (depth - 1) (by omega)) depth
      simp only [read_succ]
      exact tokenwise_readWith hframes depth

theorem tokenwise_readFrames (depth : Nat) : Tokenwise fun limit => readFrames limit depth :=
  tokenwise_readArray (tokenwise_read (depth - 1)) depth

end StepScope.Snapshot
