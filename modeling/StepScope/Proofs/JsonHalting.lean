import StepScope.Json.Halt
import StepScope.Proofs.JsonLocality

/-!
Where reading halts does not depend on what follows either, so long as something is left there: the same
fault is found with more text behind, at the same place.
-/

namespace StepScope.Json

/-- Where a text is at fault and there is something left at the place where reading halts, it is at fault and
halts at that place whatever follows. -/
def Halts {α : Type} (read : Text → Except Fault α) (stop : Text → Option Text) : Prop :=
  ∀ {s h : Text} {fault : Fault}, read s = .error fault → stop s = some h → h ≠ [] →
    ∀ rest, (∃ fault', read (s ++ rest) = .error fault') ∧ stop (s ++ rest) = some (h ++ rest)

theorem dropBytes_append {count : Nat} {s h : Text} (hdrop : dropBytes count s = some h) (hne : h ≠ [])
    (rest : Text) : dropBytes count (s ++ rest) = some (h ++ rest) := by
  induction s generalizing count with
  | nil =>
    cases count with
    | zero =>
      cases hdrop
      exact absurd rfl hne
    | succ count =>
      cases hdrop
      exact absurd rfl hne
  | cons c s ih =>
    cases count with
    | zero =>
      cases hdrop
      rfl
    | succ count =>
      rw [dropBytes] at hdrop
      rw [List.cons_append, dropBytes]
      split at hdrop
      · rename_i hsize
        rw [if_pos hsize, ih hdrop]
      · cases hdrop

theorem halts_letters (letters : Text) : Halts (readLetters letters) (haltLetters letters) := by
  induction letters with
  | nil => nofun
  | cons letter letters ih =>
    intro s h fault hread hstop hne rest
    cases s with
    | nil =>
      cases hstop
      exact absurd rfl hne
    | cons c s =>
      rw [readLetters] at hread
      rw [haltLetters] at hstop
      rw [List.cons_append, readLetters, haltLetters]
      split at hread
      · rename_i hc
        rw [if_pos hc] at hstop
        rw [if_pos hc, if_pos hc]
        exact ih hread hstop hne rest
      · rename_i hc
        rw [if_neg hc] at hstop
        rw [if_neg hc, if_neg hc]
        exact ⟨⟨_, rfl⟩, dropBytes_append hstop hne rest⟩

/-! Strings -/

/-- A digit is a byte of its own. -/
theorem dropBytes_hexDigit {c : Char} (h : (hexDigit? c).isSome = true) (count : Nat) (s : Text) :
    dropBytes (count + 1) (c :: s) = dropBytes count s := by
  have hlt : c.toNat < 128 := by
    unfold hexDigit? Hex.digit? at h
    split at h
    · omega
    · split at h
      · omega
      · split at h
        · omega
        · cases h
  have hsize : c.utf8Size = 1 := by
    rw [Char.utf8Size_eq_one_iff]
    exact Nat.le_of_lt_succ hlt
  rw [dropBytes, hsize, if_pos (Nat.le_add_left 1 count), Nat.add_sub_cancel]

theorem readUnit_eq_ok {s u : Text} {n : Nat} (h : readUnit s = .ok (n, u)) :
    ∃ digits, digits.length = 4 ∧ (∀ c ∈ digits, (hexDigit? c).isSome = true) ∧ s = digits ++ u := by
  unfold readUnit at h
  split at h
  · rename_i a b c d _
    split at h
    · rename_i ha hb hc hd
      cases h
      refine ⟨[a, b, c, d], rfl, ?_, rfl⟩
      simp [ha, hb, hc, hd]
    · cases h
  · split at h <;> cases h

/-- Where four bytes are more than a text has digits, there is something else among them. -/
theorem halts_unit : Halts readUnit (dropBytes 4) := by
  intro s h fault hread hstop hne rest
  refine ⟨?_, dropBytes_append hstop hne rest⟩
  cases hwhole : readUnit (s ++ rest) with
  | error fault' => exact ⟨fault', rfl⟩
  | ok found =>
    obtain ⟨digits, hlength, hdigits, hsplit⟩ := readUnit_eq_ok hwhole
    have hshort : ∀ (front : Text) (count : Nat), (∀ c ∈ front, (hexDigit? c).isSome = true) →
        front.length ≤ count → dropBytes count front = some [] := by
      intro front
      induction front with
      | nil =>
        intro count _ _
        cases count <;> rfl
      | cons c front ih =>
        intro count hfront hcount
        obtain ⟨hc, hfront⟩ := List.forall_mem_cons.1 hfront
        obtain ⟨count, rfl⟩ := Nat.exists_eq_succ_of_ne_zero (Nat.ne_zero_of_lt hcount)
        rw [dropBytes_hexDigit hc]
        exact ih count hfront (Nat.le_of_succ_le_succ hcount)
    rcases List.append_eq_append_iff.1 hsplit with ⟨more, hmore, _⟩ | ⟨more, hmore, _⟩
    · have hs : dropBytes 4 s = some [] := by
        apply hshort
        · intro c hc
          exact hdigits c (hmore ▸ List.mem_append_left more hc)
        · rw [← hlength, hmore, List.length_append]
          omega
      rw [hs] at hstop
      exact absurd (Option.some.inj hstop).symm hne
    · obtain ⟨n, hn⟩ := readUnit_hexDigits hlength hdigits more
      rw [hmore, hn] at hread
      cases hread

theorem halts_lowHalf (high : Nat) : Halts (readLowHalf high) haltLowHalf := by
  intro s h fault hread hstop hne rest
  unfold haltLowHalf at hstop
  split at hstop
  · rename_i s
    rw [List.cons_append, List.cons_append, haltLowHalf]
    refine ⟨?_, dropBytes_append hstop hne rest⟩
    cases hunit : readUnit s with
    | error fault' =>
      obtain ⟨fault'', hfault⟩ := (halts_unit hunit hstop hne rest).1
      exact ⟨fault'', by simp only [readLowHalf, hfault, bind, Except.bind]⟩
    | ok found =>
      obtain ⟨low, u⟩ := found
      simp only [readLowHalf, hunit, readUnit_append hunit rest, bind, Except.bind] at hread ⊢
      split at hread
      · cases hread
      · rename_i hlow
        rw [if_neg hlow]
        exact ⟨_, rfl⟩
  · rename_i s hu
    cases s with
    | nil =>
      cases hstop
      exact absurd rfl hne
    | cons c s =>
      have hc : c ≠ 'u' := fun hc => hu s (hc ▸ rfl)
      have hdrop := dropBytes_append hstop hne rest
      exact ⟨⟨.malformed, by simp [readLowHalf, hc]⟩, by simpa [haltLowHalf, hc] using hdrop⟩
  · rename_i _ hbackslash
    cases s with
    | nil =>
      cases hstop
      exact absurd rfl hne
    | cons c s =>
      have hc : c ≠ '\\' := fun hc => hbackslash s (hc ▸ rfl)
      have hdrop := dropBytes_append hstop hne rest
      exact ⟨⟨.malformed, by simp [readLowHalf, hc]⟩, by simpa [haltLowHalf, hc] using hdrop⟩

theorem halts_code {s h : Text} {fault : Fault} (hread : readCode s = .error fault)
    (hstop : haltEscape ('u' :: s) = some h) (hne : h ≠ []) (rest : Text) :
    (∃ fault', readCode (s ++ rest) = .error fault') ∧
      haltEscape ('u' :: (s ++ rest)) = some (h ++ rest) := by
  rw [haltEscape] at hstop ⊢
  cases hunit : readUnit s with
  | error fault' =>
    simp only [hunit] at hstop
    obtain ⟨⟨fault'', hfault⟩, hdrop⟩ := halts_unit hunit hstop hne rest
    simp only [readCode, hfault, bind, Except.bind, hdrop]
    exact ⟨⟨_, rfl⟩, trivial⟩
  | ok found =>
    obtain ⟨unit, u⟩ := found
    simp only [readCode, hunit, readUnit_append hunit rest, bind, Except.bind] at hread hstop ⊢
    split at hstop
    · rename_i hhigh
      have hlow : ¬ (0xdc00 ≤ unit ∧ unit ≤ 0xdfff) := by omega
      rw [if_neg hlow, if_pos hhigh] at hread
      rw [if_neg hlow, if_pos hhigh, if_pos hhigh]
      exact halts_lowHalf unit hread hstop hne rest
    · rename_i hhigh
      cases hstop
      rw [if_neg hhigh] at hread
      split at hread
      · rename_i hlow
        rw [if_pos hlow, if_neg hhigh]
        exact ⟨⟨_, rfl⟩, rfl⟩
      · cases hread

theorem halts_escape : Halts readEscape haltEscape := by
  intro s h fault hread hstop hne rest
  cases s with
  | nil =>
    cases hstop
    exact absurd rfl hne
  | cons c s =>
    rw [List.cons_append]
    by_cases hc : c = 'u'
    · subst hc
      have hcode : ∀ s, readEscape ('u' :: s) = readCode s := fun _ => rfl
      rw [hcode] at hread ⊢
      exact halts_code hread hstop hne rest
    · have hstop' : ∀ s, haltEscape (c :: s) = dropBytes 1 (c :: s) := by
        intro s
        simp [haltEscape, hc]
      rw [hstop'] at hstop ⊢
      refine ⟨?_, dropBytes_append hstop hne rest⟩
      rw [readEscape] at hread ⊢
      split at hread
      · cases hread
      · simp only [if_neg hc]
        exact ⟨_, rfl⟩

theorem readText_fault {s : Text} {fault : Fault} (h : readEscape s = .error fault) :
    readText ('\\' :: s) = .error fault := by
  rw [readText, if_neg (by decide), if_pos rfl]
  split
  · rename_i hs
    rw [h] at hs
    cases hs
    rfl
  · rename_i hs
    rw [h] at hs
    cases hs

theorem haltText_fault {s : Text} {fault : Fault} (h : readEscape s = .error fault) :
    haltText ('\\' :: s) = haltEscape s := by
  rw [haltText, if_neg (by decide), if_pos rfl]
  split
  · rfl
  · rename_i hs
    rw [h] at hs
    cases hs

theorem haltText_backslash {s s' : Text} {c : Char} (h : readEscape s = .ok (c, s')) :
    haltText ('\\' :: s) = haltText s' := by
  rw [haltText, if_neg (by decide), if_pos rfl]
  split
  · rename_i hs
    rw [h] at hs
    cases hs
  · rename_i hs
    rw [h] at hs
    cases hs
    rfl

/-- By the recursion of `haltText`, which goes past what is read and stops at the fault. -/
theorem halts_text : Halts readText haltText := by
  intro s
  fun_induction haltText s with
  | case1 =>
    intro h fault _ hstop hne
    exact absurd (Option.some.inj hstop).symm hne
  | case2 s =>
    intro h fault hread
    rw [readText_quote] at hread
    cases hread
  | case3 s fault' hescape =>
    intro h fault _ hstop hne rest
    obtain ⟨⟨fault'', hescape'⟩, hhalt⟩ := halts_escape hescape hstop hne rest
    exact ⟨⟨fault'', readText_fault hescape'⟩, (haltText_fault hescape').trans hhalt⟩
  | case4 s c s' hescape _ _ ih =>
    intro h fault hread hstop hne rest
    have hescape' := readEscape_append hescape rest
    rw [readText_backslash hescape] at hread
    rw [List.cons_append, readText_backslash hescape', haltText_backslash hescape']
    cases hs' : readText s' with
    | ok found =>
      rw [hs'] at hread
      cases hread
    | error fault' =>
      obtain ⟨⟨fault'', hfault⟩, hhalt⟩ := ih hs' hstop hne rest
      exact ⟨⟨fault'', by rw [hfault]; rfl⟩, hhalt⟩
  | case5 c s hquote hbackslash hc =>
    intro h fault _ hstop _ rest
    cases hstop
    rw [List.cons_append, readText, haltText, if_neg hquote, if_neg hbackslash, if_pos hc, if_neg hquote,
      if_neg hbackslash, if_pos hc]
    exact ⟨⟨_, rfl⟩, rfl⟩
  | case6 c s hquote hbackslash hc ih =>
    intro h fault hread hstop hne rest
    rw [readText_cons hquote hbackslash hc] at hread
    rw [List.cons_append, readText_cons hquote hbackslash hc, haltText, if_neg hquote, if_neg hbackslash,
      if_neg hc]
    cases hs : readText s with
    | ok found =>
      rw [hs] at hread
      cases hread
    | error fault' =>
      obtain ⟨⟨fault'', hfault⟩, hhalt⟩ := ih hs hstop hne rest
      exact ⟨⟨fault'', by rw [hfault]; rfl⟩, hhalt⟩

/-! Numbers -/

/-- A row of digits is missing where something else stands. -/
theorem head_of_readDigits {s : Text} {fault : Fault} (h : readDigits s = .error fault) :
    ¬ s.head?.any Char.isDigit = true := by
  cases s with
  | nil => nofun
  | cons c s =>
    intro hc
    have hc : c.isDigit = true := by simpa using hc
    simp [readDigits, hc] at h

theorem readDigits_of_head {s : Text} (h : s.head?.any Char.isDigit = true) :
    ∃ digits, readDigits s = .ok (digits, s.dropWhile Char.isDigit) := by
  cases hread : readDigits s with
  | error fault => exact absurd h (head_of_readDigits hread)
  | ok found =>
    obtain ⟨digits, u⟩ := found
    obtain ⟨hdigits, rfl, hhead⟩ := readDigits_eq_ok hread
    have hspan := Text.span_append hdigits.2 hhead
    rw [List.span_eq_takeWhile_dropWhile, Prod.mk.injEq] at hspan
    exact ⟨digits, by rw [hspan.2]⟩

theorem readDigits_of_not_head {s : Text} (h : ¬ s.head?.any Char.isDigit = true) (hne : s ≠ [])
    (rest : Text) : readDigits (s ++ rest) = .error .malformed := by
  obtain ⟨c, s, rfl⟩ := List.exists_cons_of_ne_nil hne
  have hc : c.isDigit = false := by simpa using h
  simp [readDigits, hc]

theorem map_eq_error {ε α β : Type} {x : Except ε α} {f : α → β} {e : ε} (h : x.map f = .error e) :
    x = .error e := by
  cases x with
  | error e' => exact congrArg Except.error (Except.error.inj h)
  | ok a => cases h

theorem halts_exponent : Halts readExponent haltExponent := by
  intro s h fault hread hstop hne rest
  cases s with
  | nil =>
    cases hstop
    exact absurd rfl hne
  | cons c s =>
    have hdigits : ∀ {s : Text} {fault}, readDigits s = .error fault → dropBytes 1 s = some h →
        readDigits (s ++ rest) = .error .malformed := by
      intro s fault hread hdrop
      apply readDigits_of_not_head (head_of_readDigits hread)
      rintro rfl
      cases hdrop
      exact hne rfl
    rw [haltExponent] at hstop
    rw [List.cons_append, haltExponent]
    split at hstop
    · rename_i hc
      rw [if_pos hc]
      refine ⟨⟨.malformed, ?_⟩, dropBytes_append hstop hne rest⟩
      rcases hc with rfl | rfl
      · rw [readExponent, hdigits (map_eq_error hread) hstop]
        rfl
      · rw [readExponent, hdigits (map_eq_error hread) hstop]
        rfl
    · rename_i hc
      rw [not_or] at hc
      have hplain : ∀ s, readExponent (c :: s) =
          (readDigits (c :: s)).map fun p => ((value p.1 : Int), p.2) := by
        intro s
        rw [readExponent]
        · intro _ heq
          exact hc.2 (List.cons.inj heq).1
        · intro _ heq
          exact hc.1 (List.cons.inj heq).1
      rw [hplain] at hread
      rw [if_neg (not_or.2 hc), hplain]
      refine ⟨⟨.malformed, ?_⟩, dropBytes_append hstop hne rest⟩
      rw [← List.cons_append, hdigits (map_eq_error hread) hstop]
      rfl

theorem halts_scale : Halts readScale haltScale := by
  intro s h fault hread hstop hne rest
  unfold readScale at hread
  split at hread
  · obtain ⟨⟨fault', hfault⟩, hhalt⟩ := halts_exponent (map_eq_error hread) hstop hne rest
    exact ⟨⟨fault', by rw [List.cons_append, readScale, hfault]; rfl⟩, hhalt⟩
  · obtain ⟨⟨fault', hfault⟩, hhalt⟩ := halts_exponent (map_eq_error hread) hstop hne rest
    exact ⟨⟨fault', by rw [List.cons_append, readScale, hfault]; rfl⟩, hhalt⟩
  · cases hread

/-- What is behind the whole part of a number. -/
def readTail (s : Text) : Except Fault (Option Int × Text) := readFraction s >>= fun p => readScale p.2

theorem any_head_append {s : Text} (hne : s ≠ []) (p : Char → Bool) (rest : Text) :
    (s ++ rest).head?.any p = s.head?.any p := by
  rw [List.head?_append_of_ne_nil _ hne]

theorem dropWhile_append_of_ne_nil {s : Text} {p : Char → Bool} (h : s.dropWhile p ≠ []) (rest : Text) :
    (s ++ rest).dropWhile p = s.dropWhile p ++ rest := by
  rw [List.dropWhile_append, if_neg]
  simpa using h

theorem halts_tail : Halts readTail haltFraction := by
  intro s h fault hread hstop hne rest
  have hscale : ∀ {s : Text}, readScale s = .error fault → haltScale s = some h → s ≠ [] := by
    rintro s - hstop rfl
    cases hstop
    exact hne rfl
  unfold haltFraction at hstop
  split at hstop
  · rename_i s
    have hfraction : ∀ s, readTail ('.' :: s) = readDigits s >>= fun p => readScale p.2 := fun _ => rfl
    rw [hfraction] at hread
    rw [List.cons_append, hfraction, haltFraction]
    split at hstop
    · rename_i hdigit
      obtain ⟨digits, hdigits⟩ := readDigits_of_head hdigit
      rw [hdigits] at hread
      have hdrop := hscale hread hstop
      have hs : s ≠ [] := by
        rintro rfl
        cases hdigit
      have hdigits' : readDigits (s ++ rest) = .ok (digits, s.dropWhile Char.isDigit ++ rest) :=
        local_readDigits.append 0 hdigits (fun h => absurd h hdrop) (Nat.lt_succ_self _)
      rw [any_head_append hs, if_pos hdigit, dropWhile_append_of_ne_nil hdrop, hdigits']
      exact halts_scale hread hstop hne rest
    · rename_i hdigit
      cases hstop
      rw [any_head_append hne, if_neg hdigit, readDigits_of_not_head hdigit hne]
      exact ⟨⟨_, rfl⟩, rfl⟩
  · rename_i hpoint
    have hnone : readFraction s = .ok ([], s) := by
      rw [readFraction]
      exact hpoint
    have hread' : readScale s = .error fault := by
      rw [readTail, hnone] at hread
      exact hread
    have hs := hscale hread' hstop
    have hpoint' : ∀ s', s ++ rest = '.' :: s' → False :=
      ne_mark_append (by decide) hpoint fun h => absurd h hs
    have hnone' : readFraction (s ++ rest) = .ok ([], s ++ rest) := by
      rw [readFraction]
      exact hpoint'
    rw [readTail, hnone', haltFraction]
    · exact halts_scale hread' hstop hne rest
    · exact hpoint'

theorem readUnsigned_eq_error_iff {negative : Bool} {s : Text} {fault : Fault} :
    readUnsigned negative s = .error fault ↔
      readWhole s >>= (fun p => readTail p.2) = .error fault := by
  unfold readUnsigned readTail
  cases readWhole s with
  | error fault' => simp [bind, Except.bind]
  | ok whole =>
    cases hfraction : readFraction whole.2 with
    | error fault' => simp [bind, Except.bind, hfraction]
    | ok fraction =>
      cases hscale : readScale fraction.2 with
      | error fault' => simp [bind, Except.bind, hfraction, hscale]
      | ok scale =>
        simp only [bind, Except.bind, hfraction, hscale]
        exact ⟨nofun, nofun⟩

theorem halts_behind_whole {s whole u h : Text} {fault : Fault} (hwhole : readWhole s = .ok (whole, u))
    (hread : readWhole s >>= (fun p => readTail p.2) = .error fault) (hstop : haltFraction u = some h)
    (hne : h ≠ []) (rest : Text) :
    (∃ fault', readWhole (s ++ rest) >>= (fun p => readTail p.2) = .error fault') ∧
      haltFraction (u ++ rest) = some (h ++ rest) := by
  have hu : u ≠ [] := by
    rintro rfl
    cases hstop
    exact hne rfl
  have hwhole' : readWhole (s ++ rest) = .ok (whole, u ++ rest) :=
    local_readWhole.append 0 hwhole (fun h => absurd h hu) (Nat.lt_succ_self _)
  rw [hwhole] at hread
  rw [hwhole']
  exact halts_tail hread hstop hne rest

theorem halts_unsigned (negative : Bool) : Halts (readUnsigned negative) haltUnsigned := by
  intro s h fault hread hstop hne rest
  simp only [readUnsigned_eq_error_iff] at hread ⊢
  unfold haltUnsigned at hstop
  split at hstop
  · rename_i s
    rw [List.cons_append, haltUnsigned]
    split at hstop
    · rename_i hdigit
      cases hstop
      rw [any_head_append hne, if_pos hdigit]
      obtain ⟨c, s, rfl⟩ := List.exists_cons_of_ne_nil hne
      have hc : c.isDigit = true := by simpa using hdigit
      refine ⟨⟨.malformed, ?_⟩, rfl⟩
      simp [readWhole, hc, bind, Except.bind]
    · rename_i hdigit
      have hwhole : readWhole ('0' :: s) = .ok (['0'], s) := by
        cases s with
        | nil => rfl
        | cons c s =>
          have hc : c.isDigit = false := by simpa using hdigit
          simp [readWhole, hc]
      have hs : s ≠ [] := by
        rintro rfl
        cases hstop
        exact hne rfl
      rw [any_head_append hs, if_neg hdigit]
      exact halts_behind_whole hwhole hread hstop hne rest
  · rename_i hzero
    have hdigits : readWhole s = readDigits s := by
      rw [readWhole]
      exact hzero
    have hs : s ≠ [] := by
      rintro rfl
      cases hstop
      exact hne rfl
    have hzero' : ∀ s', s ++ rest = '0' :: s' → False :=
      ne_mark_append (by decide) hzero fun h => absurd h hs
    rw [haltUnsigned, any_head_append hs]
    · split at hstop
      · rename_i hdigit
        obtain ⟨digits, hread'⟩ := readDigits_of_head hdigit
        have hdrop : s.dropWhile Char.isDigit ≠ [] := by
          intro hnil
          rw [hnil] at hstop
          cases hstop
          exact hne rfl
        rw [if_pos hdigit, dropWhile_append_of_ne_nil hdrop]
        exact halts_behind_whole (hdigits.trans hread') hread hstop hne rest
      · rename_i hdigit
        rw [if_neg hdigit]
        refine ⟨⟨.malformed, ?_⟩, dropBytes_append hstop hne rest⟩
        have hwhole : readWhole (s ++ rest) = .error .malformed := by
          rw [readWhole, readDigits_of_not_head hdigit hs]
          exact hzero'
        rw [hwhole]
        rfl
    · exact hzero'

theorem halts_number : Halts readNumber haltNumber := by
  intro s h fault hread hstop hne rest
  unfold haltNumber at hstop
  split at hstop
  · rename_i literal u hliteral
    split at hstop
    · rename_i hexponent
      cases hstop
      have hliteral' : readLiteral (s ++ rest) = .ok (literal, h ++ rest) :=
        local_readLiteral.append 0 hliteral (fun h => absurd h hne) (Nat.lt_succ_self _)
      rw [readNumber, hliteral] at hread
      rw [readNumber, haltNumber, hliteral']
      simp only [if_pos hexponent]
      simp only [bind, Except.bind] at hread ⊢
      split at hread
      · cases hread
      · split at hread
        · rename_i hlarge
          rw [if_pos hlarge]
          exact ⟨⟨_, rfl⟩, trivial⟩
        · cases hread
    · cases hstop
  · rename_i fault' hliteral
    have hliteral' : ∀ {s : Text} {fault}, readLiteral s = .error fault →
        ∃ fault', readNumber s = .error fault' := by
      intro s fault hliteral
      exact ⟨fault, by rw [readNumber, hliteral]; rfl⟩
    by_cases hminus : s.head? = some '-'
    · obtain ⟨s, rfl⟩ : ∃ s', s = '-' :: s' := List.head?_eq_some_iff.1 hminus
      rw [if_pos hminus, List.tail_cons] at hstop
      have hunsigned : readUnsigned true s = .error fault' := hliteral
      obtain ⟨⟨fault'', hfault⟩, hhalt⟩ := halts_unsigned true hunsigned hstop hne rest
      have hfault' : readLiteral ('-' :: s ++ rest) = .error fault'' := hfault
      refine ⟨hliteral' hfault', ?_⟩
      rw [haltNumber, hfault']
      exact hhalt
    · rw [if_neg hminus] at hstop
      have hs : s ≠ [] := by
        rintro rfl
        cases hstop
        exact hne rfl
      have hplain : ∀ {s}, ¬ List.head? s = some '-' → readLiteral s = readUnsigned false s := by
        intro s hs
        rw [readLiteral]
        rintro s' rfl
        exact hs rfl
      have hminus' : ¬ (s ++ rest).head? = some '-' := by rwa [List.head?_append_of_ne_nil _ hs]
      rw [hplain hminus] at hliteral
      obtain ⟨⟨fault'', hfault⟩, hhalt⟩ := halts_unsigned false hliteral hstop hne rest
      rw [← hplain hminus'] at hfault
      refine ⟨hliteral' hfault, ?_⟩
      rw [haltNumber, hfault]
      simp only [if_neg hminus']
      exact hhalt

/-! Values -/

/-- Where reading halts at a fault, from the first character that is not blank. -/
def haltFrom : Text → Option Text
  | '"' :: s => haltText s
  | 'n' :: s => haltLetters "ull".toList s
  | 't' :: s => haltLetters "rue".toList s
  | 'f' :: s => haltLetters "alse".toList s
  | c :: s => if c = '-' ∨ c.isDigit then haltNumber (c :: s) else some (c :: s)
  | [] => some []

theorem halt_of_error {s : Text} {fault : Fault} (h : readToken s = .error fault) :
    halt s = haltFrom (skipBlank s) := by
  rw [halt, h]
  rfl

theorem halts_front {c : Char} {s h : Text} {fault : Fault} (hblank : isBlank c = false)
    (hread : readToken (c :: s) = .error fault) (hstop : haltFrom (c :: s) = some h) (hne : h ≠ [])
    (rest : Text) :
    (∃ fault', readToken (c :: (s ++ rest)) = .error fault') ∧
      haltFrom (c :: (s ++ rest)) = some (h ++ rest) := by
  have hletters : ∀ {c letters} {token : Token},
      (∀ s, readToken (c :: s) = (readLetters letters s).map fun rest => (token, rest)) →
      readToken (c :: s) = .error fault → haltLetters letters s = some h →
      (∃ fault', readToken (c :: (s ++ rest)) = .error fault') ∧
        haltLetters letters (s ++ rest) = some (h ++ rest) := by
    intro c letters token heq hread hstop
    rw [heq] at hread
    obtain ⟨⟨fault', hfault⟩, hhalt⟩ := halts_letters letters (map_eq_error hread) hstop hne rest
    exact ⟨⟨fault', by rw [heq, hfault]; rfl⟩, hhalt⟩
  by_cases hquote : c = '"'
  · subst hquote
    have heq : ∀ s, readToken ('"' :: s) = (readText s).map fun p => (.text p.1, p.2) := fun _ => rfl
    rw [heq] at hread
    obtain ⟨⟨fault', hfault⟩, hhalt⟩ := halts_text (map_eq_error hread) hstop hne rest
    exact ⟨⟨fault', by rw [heq, hfault]; rfl⟩, hhalt⟩
  by_cases hn : c = 'n'
  · subst hn
    exact hletters (fun _ => rfl) hread hstop
  by_cases ht : c = 't'
  · subst ht
    exact hletters (fun _ => rfl) hread hstop
  by_cases hf : c = 'f'
  · subst hf
    exact hletters (fun _ => rfl) hread hstop
  have hother : ∀ s, haltFrom (c :: s) =
      if c = '-' ∨ c.isDigit then haltNumber (c :: s) else some (c :: s) := by
    intro s
    simp [haltFrom]
  rw [hother] at hstop ⊢
  by_cases hc : c = '-' ∨ c.isDigit = true
  · rw [if_pos hc] at hstop ⊢
    rw [readToken_number hc] at hread ⊢
    exact halts_number hread hstop hne rest
  · rw [if_neg hc] at hstop ⊢
    cases hstop
    refine ⟨⟨.malformed, ?_⟩, rfl⟩
    have harray : c ≠ '[' := by
      rintro rfl
      cases hread
    have hobject : c ≠ '\x7b' := by
      rintro rfl
      cases hread
    rw [readToken, skipBlank_cons hblank]
    simp [not_or.1 hc]

/-- A value where no bracket is opened: reading halts behind it or at its fault, whatever follows. -/
theorem halt_append {s h : Text} (hhalt : halt s = some h) (hne : h ≠ [])
    (hbracket : ∀ u, readToken s ≠ .ok (.openArray, u) ∧ readToken s ≠ .ok (.openObject, u)) (rest : Text) :
    halt (s ++ rest) = some (h ++ rest) ∧
      ((∃ token, readToken s = .ok (token, h) ∧ readToken (s ++ rest) = .ok (token, h ++ rest)) ∨
        ∃ fault fault', readToken s = .error fault ∧ readToken (s ++ rest) = .error fault') := by
  have hfront : ∀ {c s'} (rest : Text), skipBlank s = c :: s' →
      readToken (s ++ rest) = readToken (c :: (s' ++ rest)) := by
    intro c s' rest heq
    rw [← readToken_skipBlank, skipBlank_append_of_cons heq]
  cases htoken : readToken s with
  | ok found =>
    obtain ⟨token, u⟩ := found
    obtain ⟨harray, hobject⟩ := hbracket u
    have hu : u = h := by
      rw [halt, htoken] at hhalt
      cases token with
      | openArray => exact absurd htoken harray
      | openObject => exact absurd htoken hobject
      | _ => exact Option.some.inj hhalt
    subst hu
    have htoken' : readToken (s ++ rest) = .ok (token, u ++ rest) :=
      (readToken_append htoken).2 fun h => absurd h hne
    refine ⟨?_, .inl ⟨token, rfl, htoken'⟩⟩
    rw [halt, htoken']
    cases token with
    | openArray => exact absurd htoken harray
    | openObject => exact absurd htoken hobject
    | _ => rfl
  | error fault =>
    rw [halt_of_error htoken] at hhalt
    cases heq : skipBlank s with
    | nil =>
      rw [heq] at hhalt
      cases hhalt
      exact absurd rfl hne
    | cons c s' =>
      rw [heq] at hhalt
      rw [← readToken_skipBlank, heq] at htoken
      obtain ⟨⟨fault', hfault⟩, hhalt'⟩ : (∃ fault', readToken (c :: (s' ++ rest)) = .error fault') ∧
          haltFrom (c :: (s' ++ rest)) = some (h ++ rest) := by
        exact halts_front (head_skipBlank heq) htoken hhalt hne rest
      rw [← skipBlank_append_of_cons heq] at hfault hhalt'
      rw [readToken_skipBlank] at hfault
      exact ⟨(halt_of_error hfault).trans hhalt', .inr ⟨fault, fault', rfl, hfault⟩⟩

/-! Lengths -/

/-- What is left where reading halts is no longer than the text. -/
def Shortens (stop : Text → Option Text) : Prop := ∀ {s h : Text}, stop s = some h → h.length ≤ s.length

theorem shortens_some : Shortens some := by
  intro s h hstop
  cases hstop
  exact Nat.le_refl _

theorem shortens_dropBytes (count : Nat) : Shortens (dropBytes count) := by
  intro s h hstop
  induction s generalizing count with
  | nil => cases count <;> cases hstop <;> exact Nat.le_refl _
  | cons c s ih =>
    cases count with
    | zero => exact shortens_some hstop
    | succ count =>
      rw [dropBytes] at hstop
      split at hstop
      · exact Nat.le_succ_of_le (ih _ hstop)
      · cases hstop

theorem shortens_haltLetters (letters : Text) : Shortens (haltLetters letters) := by
  intro s h hstop
  induction letters generalizing s with
  | nil => exact shortens_some hstop
  | cons letter letters ih =>
    cases s with
    | nil => exact shortens_some hstop
    | cons c s =>
      rw [haltLetters] at hstop
      split at hstop
      · exact Nat.le_succ_of_le (ih hstop)
      · exact shortens_dropBytes 1 hstop

theorem shortens_haltLowHalf : Shortens haltLowHalf := by
  intro s h hstop
  unfold haltLowHalf at hstop
  split at hstop
  · have hle := shortens_dropBytes 4 hstop
    exact Nat.le_succ_of_le (Nat.le_succ_of_le hle)
  · exact Nat.le_succ_of_le (shortens_dropBytes 1 hstop)
  · exact shortens_dropBytes 1 hstop

theorem shortens_haltEscape : Shortens haltEscape := by
  intro s h hstop
  unfold haltEscape at hstop
  split at hstop
  · split at hstop
    · exact Nat.le_succ_of_le (shortens_dropBytes 4 hstop)
    · rename_i hunit
      have hlength := length_readUnit hunit
      split at hstop
      · have hle := shortens_haltLowHalf hstop
        exact Nat.le_succ_of_le (Nat.le_trans hle (Nat.le_of_lt hlength))
      · have hle := shortens_some hstop
        exact Nat.le_succ_of_le (Nat.le_trans hle (Nat.le_of_lt hlength))
  · exact shortens_dropBytes 1 hstop

theorem shortens_haltText : Shortens haltText := by
  intro s h hstop
  fun_induction haltText s with
  | case1 => exact shortens_some hstop
  | case2 s => exact Nat.le_succ_of_le (shortens_some hstop)
  | case3 s => exact Nat.le_succ_of_le (shortens_haltEscape hstop)
  | case4 s c s' _ hlength _ ih => exact Nat.le_succ_of_le (Nat.le_trans (ih hstop) (Nat.le_of_lt hlength))
  | case5 c s => exact Nat.le_succ_of_le (shortens_some hstop)
  | case6 c s _ _ _ ih => exact Nat.le_succ_of_le (ih hstop)

theorem shortens_haltExponent : Shortens haltExponent := by
  intro s h hstop
  cases s with
  | nil => exact shortens_some hstop
  | cons c s =>
    rw [haltExponent] at hstop
    split at hstop
    · exact Nat.le_succ_of_le (shortens_dropBytes 1 hstop)
    · exact shortens_dropBytes 1 hstop

theorem shortens_haltScale : Shortens haltScale := by
  intro s h hstop
  unfold haltScale at hstop
  split at hstop
  · exact Nat.le_succ_of_le (shortens_haltExponent hstop)
  · exact Nat.le_succ_of_le (shortens_haltExponent hstop)
  · exact shortens_some hstop

theorem length_dropWhile (p : Char → Bool) (s : Text) : (s.dropWhile p).length ≤ s.length :=
  (List.dropWhile_suffix p).length_le

theorem shortens_haltFraction : Shortens haltFraction := by
  intro s h hstop
  unfold haltFraction at hstop
  split at hstop
  · split at hstop
    · exact Nat.le_succ_of_le (Nat.le_trans (shortens_haltScale hstop) (length_dropWhile _ _))
    · exact Nat.le_succ_of_le (shortens_some hstop)
  · exact shortens_haltScale hstop

theorem shortens_haltUnsigned : Shortens haltUnsigned := by
  intro s h hstop
  unfold haltUnsigned at hstop
  split at hstop
  · split at hstop
    · exact Nat.le_succ_of_le (shortens_some hstop)
    · exact Nat.le_succ_of_le (shortens_haltFraction hstop)
  · split at hstop
    · exact Nat.le_trans (shortens_haltFraction hstop) (length_dropWhile _ _)
    · exact shortens_dropBytes 1 hstop

theorem shortens_haltNumber : Shortens haltNumber := by
  intro s h hstop
  unfold haltNumber at hstop
  split at hstop
  · rename_i hread
    split at hstop
    · exact Nat.le_trans (shortens_some hstop) (Nat.le_of_lt (length_readLiteral hread))
    · cases hstop
  · have hle := shortens_haltUnsigned hstop
    split at hle
    · exact Nat.le_trans hle (by simp)
    · exact hle

theorem shortens_haltFrom : Shortens haltFrom := by
  intro s h hstop
  unfold haltFrom at hstop
  split at hstop
  · exact Nat.le_succ_of_le (shortens_haltText hstop)
  · exact Nat.le_succ_of_le (shortens_haltLetters _ hstop)
  · exact Nat.le_succ_of_le (shortens_haltLetters _ hstop)
  · exact Nat.le_succ_of_le (shortens_haltLetters _ hstop)
  · split at hstop
    · exact shortens_haltNumber hstop
    · exact shortens_some hstop
  · exact shortens_some hstop

theorem shortens_halt : Shortens halt := by
  intro s h hstop
  cases hread : readToken s with
  | ok found =>
    obtain ⟨token, u⟩ := found
    have hlt := (readToken_append hread).1
    rw [halt, hread] at hstop
    cases token with
    | openArray => exact shortens_some hstop
    | openObject => exact shortens_some hstop
    | _ => exact Nat.le_trans (shortens_some hstop) (Nat.le_of_lt hlt)
  | error fault =>
    rw [halt_of_error hread] at hstop
    exact Nat.le_trans (shortens_haltFrom hstop) (length_skipBlank s)

end StepScope.Json
