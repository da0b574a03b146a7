import K530.Quantum.SendString

/-!
# How Far a String Is Read

The end of a string is looked for where a character or an escape begins, and
nowhere else. So it is passed over if it comes within an escape, and what is
behind it is sent as if it belonged to the string. A character beyond the tables
is looked up all the same.

That nothing of the kind happens is a matter of the string alone: every escape of
it has to be whole, and every other character has to be one of ASCII.

## Main definitions

* `Complete`: A string whose escapes are whole and whose characters are in the
  tables.

## Theorems

* `sendStringWithDelay_cases`: A turn of the loop.
* `send_string_within_iff`: Both.
-/

namespace K530

open Memory

/-- An escape of three characters: tap, down or up. -/
def IsKeyEscape (k : Byte) : Prop := k = ssTapCode ∨ k = ssDownCode ∨ k = ssUpCode

/-- Every escape is whole, and every other character is one of the 128. -/
inductive Complete : List Byte → Prop
  | nil : Complete []
  | char {c : Byte} {l : List Byte} (hc : c ≠ ssQmkPrefix) (hascii : c.toNat < 128)
      (h : Complete l) : Complete (c :: l)
  | key {k keycode : Byte} {l : List Byte} (hk : IsKeyEscape k) (h : Complete l) :
      Complete (ssQmkPrefix :: k :: keycode :: l)
  | delay {digits l : List Byte} {c : Byte} (hdigits : ∀ d ∈ digits, isDigit d = true)
      (hc : isDigit c = false) (h : Complete l) :
      Complete (ssQmkPrefix :: ssDelayCode :: (digits ++ c :: l))
  | other {k : Byte} {l : List Byte} (hk : ¬ IsKeyEscape k) (hdelay : k ≠ ssDelayCode)
      (h : Complete l) : Complete (ssQmkPrefix :: k :: l)

/-- Nothing is read behind a place, and every lookup is in range. -/
def Sending.Within (s : Sending) (last : Nat) : Prop :=
  (∀ place ∈ s.reads, place ≤ last) ∧ ∀ l ∈ s.lookups, l.InRange

theorem Sending.within_append (s t : Sending) (last : Nat) :
    (s ++ t).Within last ↔ s.Within last ∧ t.Within last := by
  change Sending.Within (Sending.append s t) last ↔ _
  unfold Within append
  simp only [List.mem_append, or_imp, forall_and]
  exact and_and_and_comm

theorem Sending.Within.mono {s : Sending} {last last' : Nat} (h : s.Within last)
    (hle : last ≤ last') : s.Within last' :=
  ⟨fun place hplace => Nat.le_trans (h.1 place hplace) hle, h.2⟩

theorem Sending.within_of_reads {reads : List Nat} {calls : List TypingCall} {last : Nat}
    (h : ∀ place ∈ reads, place ≤ last) : Sending.Within ⟨reads, [], calls⟩ last :=
  ⟨h, fun _ hl => absurd hl List.not_mem_nil⟩

theorem sendChar_within (t : AsciiTables) (c : Byte) (last : Nat) :
    (sendChar t c).Within last ↔ c.toNat < 128 := by
  unfold Sending.Within sendChar CharLookup.InRange
  simp only [List.mem_cons, List.not_mem_nil, or_false, forall_eq_or_imp, forall_eq, false_implies,
    implies_true, true_and]
  omega

section

variable (t : AsciiTables) {str : Nat → Byte} {interval : Byte} {fuel place : Nat} {sent : Sending}

theorem sendStringWithDelay_cases
    (h : sendStringWithDelay t str interval (fuel + 1) place = some sent) :
    (str place = 0 ∧ sent = ⟨[place], [], []⟩) ∨
    (str place ≠ 0 ∧ str place = ssQmkPrefix ∧ ∃ part last rest,
      escape str fuel (place + 1) = some (part, last) ∧
      sendStringWithDelay t str interval fuel (last + 1) = some rest ∧
      sent = ⟨[place], [], []⟩ ++ part ++ ⟨[], [], [.wait interval.toNat]⟩ ++ rest) ∨
    (str place ≠ 0 ∧ str place ≠ ssQmkPrefix ∧ ∃ rest,
      sendStringWithDelay t str interval fuel (place + 1) = some rest ∧
      sent = ⟨[place], [], []⟩ ++ sendChar t (str place) ++ ⟨[], [], [.wait interval.toNat]⟩ ++
        rest) := by
  unfold sendStringWithDelay at h
  dsimp only at h
  by_cases hend : str place = 0
  · rw [if_pos hend, Option.some.injEq] at h
    exact Or.inl ⟨hend, h.symm⟩
  rw [if_neg hend] at h
  by_cases hprefix : str place = ssQmkPrefix
  · rw [if_pos hprefix, Option.bind_eq_bind, Option.bind_eq_some_iff] at h
    obtain ⟨⟨part, last⟩, hescape, h⟩ := h
    rw [Option.bind_eq_bind, Option.bind_eq_some_iff] at h
    obtain ⟨rest, hrest, h⟩ := h
    exact Or.inr (Or.inl ⟨hend, hprefix, part, last, rest, hescape, hrest,
      (Option.some.inj h).symm⟩)
  · rw [if_neg hprefix, Option.bind_eq_bind, Option.bind_eq_some_iff] at h
    obtain ⟨rest, hrest, h⟩ := h
    exact Or.inr (Or.inr ⟨hend, hprefix, rest, hrest, (Option.some.inj h).symm⟩)

theorem mem_reads (h : sendStringWithDelay t str interval fuel place = some sent) :
    place ∈ sent.reads := by
  cases fuel with
  | zero => exact absurd h (by simp [sendStringWithDelay])
  | succ fuel =>
    have hfirst : ∀ rest : Sending, place ∈ (⟨[place], [], []⟩ ++ rest : Sending).reads :=
      fun rest => List.mem_cons_self
    have hleft : ∀ s t : Sending, place ∈ s.reads → place ∈ (s ++ t).reads :=
      fun s t hs => List.mem_append_left _ hs
    rcases sendStringWithDelay_cases t h with ⟨_, rfl⟩ | ⟨_, _, _, _, _, _, _, rfl⟩ |
      ⟨_, _, _, _, rfl⟩
    · exact List.mem_singleton_self place
    · exact hleft _ _ (hleft _ _ (hfirst _))
    · exact hleft _ _ (hleft _ _ (hfirst _))

end

/-! ### The digits of a delay -/

section

variable {str : Nat → Byte} {fuel place : Nat}

theorem delayDigits_whole {digits l : List Byte} {c : Byte}
    (hdigits : ∀ d ∈ digits, isDigit d) (hc : isDigit c = false)
    (h : Stretch str place (digits ++ c :: l)) (hfuel : digits.length < fuel) (ms : BitVec 32) :
    ∃ ms' reads, delayDigits str fuel place ms = some (ms', place + digits.length, reads) := by
  induction digits generalizing place fuel ms with
  | nil =>
    obtain ⟨fuel, rfl⟩ := Nat.exists_eq_add_of_lt hfuel
    -- The first character that is no digit is read, and no other.
    have hlast : isDigit (str place) = false := by rw [h.1, hc]
    exact ⟨ms, [place], by simp [delayDigits, hlast]⟩
  | cons d digits ih =>
    cases fuel with
    | zero => exact absurd hfuel (Nat.not_lt_zero _)
    | succ fuel =>
      have hdigit : isDigit (str place) := by
        rw [h.1]
        exact hdigits d List.mem_cons_self
      obtain ⟨ms', reads, hrest⟩ := ih (fun d hd => hdigits d (List.mem_cons_of_mem _ hd)) h.2
        (Nat.lt_of_succ_lt_succ hfuel) (ms * 10 + (str place - 0x30).setWidth 32)
      refine ⟨ms', place :: reads, ?_⟩
      unfold delayDigits
      dsimp only
      rw [if_pos hdigit, hrest, List.length_cons, Nat.add_comm digits.length, ← Nat.add_assoc]
      rfl

theorem delayDigits_last {l : List Byte} (h : Stretch str place (l ++ [0])) (ms : BitVec 32)
    {r : BitVec 32 × Nat × List Nat} (hr : delayDigits str fuel place ms = some r) :
    r.2.1 = place + l.length ∨ ∃ digits c rest, l = digits ++ c :: rest ∧
      (∀ d ∈ digits, isDigit d) ∧ isDigit c = false ∧ r.2.1 = place + digits.length := by
  induction l generalizing place fuel ms r with
  | nil =>
    cases fuel with
    | zero => exact absurd hr (by simp [delayDigits])
    | succ fuel =>
      -- The end of the string is no digit.
      have hend : isDigit (str place) = false := by rw [h.1]; decide
      rw [delayDigits, hend] at hr
      exact Or.inl (by rw [← Option.some.inj hr]; rfl)
  | cons c l ih =>
    cases fuel with
    | zero => exact absurd hr (by simp [delayDigits])
    | succ fuel =>
      unfold delayDigits at hr
      dsimp only at hr
      by_cases hdigit : isDigit (str place)
      · rw [if_pos hdigit, Option.map_eq_some_iff] at hr
        obtain ⟨r', hr', rfl⟩ := hr
        rcases ih h.2 _ hr' with hend | ⟨digits, c', rest, rfl, hdigits, hc, hlast⟩
        · exact Or.inl (by rw [hend, List.length_cons]; omega)
        · refine Or.inr ⟨c :: digits, c', rest, rfl, ?_, hc, ?_⟩
          · exact List.forall_mem_cons.mpr ⟨by rw [← h.1]; exact hdigit, hdigits⟩
          · rw [hlast, List.length_cons]
            omega
      · rw [if_neg hdigit, Option.some.injEq] at hr
        refine Or.inr ⟨[], c, l, rfl, by simp, ?_, by rw [← hr]; rfl⟩
        rw [← h.1]
        exact Bool.not_eq_true _ ▸ hdigit

theorem delayDigits_reads (ms : BitVec 32) {r : BitVec 32 × Nat × List Nat}
    (hr : delayDigits str fuel place ms = some r) :
    place ≤ r.2.1 ∧ ∀ i ∈ r.2.2, i ≤ r.2.1 := by
  induction fuel generalizing place ms r with
  | zero => exact absurd hr (by simp [delayDigits])
  | succ fuel ih =>
    unfold delayDigits at hr
    dsimp only at hr
    by_cases hdigit : isDigit (str place)
    · rw [if_pos hdigit, Option.map_eq_some_iff] at hr
      obtain ⟨r', hr', rfl⟩ := hr
      obtain ⟨hle, hreads⟩ := ih _ hr'
      have hfirst := Nat.le_of_succ_le hle
      exact ⟨hfirst, List.forall_mem_cons.mpr ⟨hfirst, hreads⟩⟩
    · rw [if_neg hdigit, Option.some.injEq] at hr
      rw [← hr]
      exact ⟨Nat.le_refl _, by simp⟩

/-! ### An escape -/

theorem escape_within {part : Sending} {last : Nat}
    (h : escape str fuel place = some (part, last)) : part.Within last := by
  unfold escape at h
  dsimp only at h
  split at h
  · obtain ⟨rfl, rfl⟩ := Prod.mk.inj (Option.some.inj h)
    exact Sending.within_of_reads (by simp)
  split at h
  · obtain ⟨rfl, rfl⟩ := Prod.mk.inj (Option.some.inj h)
    exact Sending.within_of_reads (by simp)
  split at h
  · obtain ⟨rfl, rfl⟩ := Prod.mk.inj (Option.some.inj h)
    exact Sending.within_of_reads (by simp)
  split at h
  · rw [Option.map_eq_some_iff] at h
    obtain ⟨r, hr, h⟩ := h
    obtain ⟨rfl, rfl⟩ := Prod.mk.inj h
    obtain ⟨hle, hreads⟩ := delayDigits_reads 0 hr
    exact Sending.within_of_reads (List.forall_mem_cons.mpr ⟨by omega, hreads⟩)
  · obtain ⟨rfl, rfl⟩ := Prod.mk.inj (Option.some.inj h)
    exact Sending.within_of_reads (by simp)

theorem escape_key (fuel : Nat) (hk : IsKeyEscape (str place)) :
    ∃ part, escape str fuel place = some (part, place + 1) := by
  unfold escape
  dsimp only
  split
  · exact ⟨_, rfl⟩
  split
  · exact ⟨_, rfl⟩
  split
  · exact ⟨_, rfl⟩
  next htap hdown hup =>
    rcases hk with h | h | h
    · exact absurd h htap
    · exact absurd h hdown
    · exact absurd h hup

theorem escape_delay (hdelay : str place = ssDelayCode) :
    escape str fuel place = (delayDigits str fuel (place + 1) 0).map
      (fun r => (⟨place :: r.2.2, [], [.wait r.1.toNat]⟩, r.2.1)) := by
  unfold escape
  dsimp only
  rw [hdelay, if_neg (by decide), if_neg (by decide), if_neg (by decide), if_pos rfl]

theorem escape_other (fuel : Nat) (hk : ¬ IsKeyEscape (str place))
    (hdelay : str place ≠ ssDelayCode) :
    escape str fuel place = some (⟨[place], [], []⟩, place) := by
  unfold escape
  dsimp only
  rw [if_neg (fun h => hk (Or.inl h)), if_neg (fun h => hk (Or.inr (Or.inl h))),
    if_neg (fun h => hk (Or.inr (Or.inr h))), if_neg hdelay]

end

/-! ### A string -/

section

variable (t : AsciiTables) {str : Nat → Byte} {interval : Byte}

theorem turn_escape {fuel place last bound : Nat} {part rest : Sending}
    (hplace : str place = ssQmkPrefix) (hescape : escape str fuel (place + 1) = some (part, last))
    (hrest : sendStringWithDelay t str interval fuel (last + 1) = some rest)
    (hbound : place ≤ bound) (hlast : last ≤ bound) (hwithin : rest.Within bound) :
    ∃ sent, sendStringWithDelay t str interval (fuel + 1) place = some sent ∧
      sent.Within bound := by
  refine ⟨⟨[place], [], []⟩ ++ part ++ ⟨[], [], [.wait interval.toNat]⟩ ++ rest, ?_, ?_⟩
  · unfold sendStringWithDelay
    dsimp only
    rw [hplace, if_neg (by decide), if_pos rfl, hescape, Option.bind_eq_bind, Option.bind_some]
    dsimp only
    rw [hrest]
    rfl
  · rw [Sending.within_append, Sending.within_append, Sending.within_append]
    refine ⟨⟨⟨?_, (escape_within hescape).mono hlast⟩, ?_⟩, hwithin⟩
    · exact Sending.within_of_reads (by simpa using hbound)
    · exact Sending.within_of_reads (by simp)

theorem turn_char {fuel place bound : Nat} {rest : Sending} (hend : str place ≠ 0)
    (hplace : str place ≠ ssQmkPrefix) (hascii : (str place).toNat < 128)
    (hrest : sendStringWithDelay t str interval fuel (place + 1) = some rest)
    (hbound : place ≤ bound) (hwithin : rest.Within bound) :
    ∃ sent, sendStringWithDelay t str interval (fuel + 1) place = some sent ∧
      sent.Within bound := by
  refine ⟨⟨[place], [], []⟩ ++ sendChar t (str place) ++ ⟨[], [], [.wait interval.toNat]⟩ ++ rest,
    ?_, ?_⟩
  · unfold sendStringWithDelay
    dsimp only
    rw [if_neg hend, if_neg hplace, hrest]
    rfl
  · rw [Sending.within_append, Sending.within_append, Sending.within_append]
    refine ⟨⟨⟨?_, (sendChar_within t _ _).mpr hascii⟩, ?_⟩, hwithin⟩
    · exact Sending.within_of_reads (by simpa using hbound)
    · exact Sending.within_of_reads (by simp)

theorem Complete.sends {l : List Byte} (h : Complete l) (hl : ∀ c ∈ l, c ≠ 0) {place fuel : Nat}
    (hstr : Stretch str place (l ++ [0])) (hfuel : l.length < fuel) :
    ∃ sent, sendStringWithDelay t str interval fuel place = some sent ∧
      sent.Within (place + l.length) := by
  induction h generalizing place fuel with
  | nil =>
    obtain ⟨fuel, rfl⟩ := Nat.exists_eq_add_of_lt hfuel
    refine ⟨⟨[place], [], []⟩, ?_, Sending.within_of_reads (by simp)⟩
    simp [sendStringWithDelay, hstr.1]
  | @char c l hc hascii h ih =>
    cases fuel with
    | zero => exact absurd hfuel (Nat.not_lt_zero _)
    | succ fuel =>
      obtain ⟨rest, hrest, hwithin⟩ := ih (fun d hd => hl d (List.mem_cons_of_mem _ hd))
        hstr.2 (Nat.lt_of_succ_lt_succ hfuel)
      rw [← hstr.1] at hc hascii
      have hend : str place ≠ 0 := by
        rw [hstr.1]
        exact hl c List.mem_cons_self
      rw [List.length_cons]
      -- The character is looked up, and the string goes on behind it.
      exact turn_char t hend hc hascii hrest (by omega) (hwithin.mono (by omega))
  | @key k keycode l hk h ih =>
    cases fuel with
    | zero => exact absurd hfuel (Nat.not_lt_zero _)
    | succ fuel =>
      simp only [List.length_cons] at hfuel ⊢
      obtain ⟨rest, hrest, hwithin⟩ := ih (fun d hd => hl d (by simp [hd])) hstr.2.2.2
        (show l.length < fuel by omega)
      rw [← hstr.2.1] at hk
      -- The escape is the prefix, the code and the keycode.
      obtain ⟨part, hpart⟩ := escape_key fuel hk
      exact turn_escape t hstr.1 hpart hrest (by omega) (by omega) (hwithin.mono (by omega))
  | @delay digits l c hdigits hc h ih =>
    cases fuel with
    | zero => exact absurd hfuel (Nat.not_lt_zero _)
    | succ fuel =>
      simp only [List.length_cons, List.length_append] at hfuel ⊢
      have hstr' : Stretch str (place + 1 + 1) (digits ++ c :: (l ++ [0])) := by
        have hbody : Stretch str (place + 1 + 1) (digits ++ c :: l ++ [0]) := hstr.2.2
        rwa [List.append_assoc, List.cons_append] at hbody
      -- The digits are read, and the character behind them with them.
      obtain ⟨ms, reads, hdelay⟩ := delayDigits_whole hdigits hc hstr'
        (show digits.length < fuel by omega) 0
      obtain ⟨rest, hrest, hwithin⟩ := ih (fun d hd => hl d (by simp [hd])) hstr'.append.2.2
        (show l.length < fuel by omega)
      have hpart : escape str fuel (place + 1) =
          some (⟨(place + 1) :: reads, [], [.wait ms.toNat]⟩,
            place + 1 + 1 + digits.length) := by
        rw [escape_delay hstr.2.1, hdelay]
        rfl
      exact turn_escape t hstr.1 hpart hrest (by omega) (by omega) (hwithin.mono (by omega))
  | @other k l hk hdelay h ih =>
    cases fuel with
    | zero => exact absurd hfuel (Nat.not_lt_zero _)
    | succ fuel =>
      simp only [List.length_cons] at hfuel ⊢
      obtain ⟨rest, hrest, hwithin⟩ := ih (fun d hd => hl d (by simp [hd])) hstr.2.2
        (show l.length < fuel by omega)
      -- What begins no escape is passed over.
      rw [← hstr.2.1] at hk hdelay
      exact turn_escape t hstr.1 (escape_other fuel hk hdelay) hrest (by omega) (by omega)
        (hwithin.mono (by omega))

theorem not_behind {fuel place last : Nat} {rest : Sending}
    (hrest : sendStringWithDelay t str interval fuel place = some rest)
    (hwithin : rest.Within last) : place ≤ last :=
  hwithin.1 place (mem_reads t hrest)

omit t in
theorem escape_rest {l : List Byte} {place fuel last : Nat} {part : Sending}
    (hstr : Stretch str place (l ++ [0])) (hescape : escape str fuel place = some (part, last))
    (hlast : last < place + l.length) :
    ∃ rest, Stretch str (last + 1) (rest ++ [0]) ∧ last + 1 + rest.length = place + l.length ∧
      (∀ c ∈ rest, c ∈ l) ∧ (Complete rest → Complete (ssQmkPrefix :: l)) := by
  cases l with
  | nil =>
    -- The end stands where the code should be.
    have hzero : str place = 0 := hstr.1
    rw [escape_other fuel (by rw [hzero]; unfold IsKeyEscape; decide) (by rw [hzero]; decide),
      Option.some.injEq] at hescape
    rw [← (Prod.mk.inj hescape).2] at hlast
    exact absurd hlast (Nat.lt_irrefl _)
  | cons k l =>
    have hplace : str place = k := hstr.1
    rw [List.length_cons] at hlast ⊢
    by_cases hk : IsKeyEscape k
    · have hkey : IsKeyEscape (str place) := by rwa [hplace]
      -- The keycode is read too, which is still one of the string.
      obtain ⟨part', hpart⟩ := escape_key fuel hkey
      obtain ⟨_, rfl⟩ := Prod.mk.inj (Option.some.inj (hescape.symm.trans hpart))
      cases l with
      | nil => exact absurd hlast (Nat.lt_irrefl _)
      | cons keycode l =>
        exact ⟨l, hstr.2.2, by rw [List.length_cons]; omega, fun c hc => by simp [hc],
          Complete.key hk⟩
    by_cases hdelay : k = ssDelayCode
    · rw [escape_delay (hplace.trans hdelay), Option.map_eq_some_iff] at hescape
      obtain ⟨r, hr, hescape⟩ := hescape
      have hrlast : r.2.1 = last := (Prod.mk.inj hescape).2
      -- The digits do not end at the end of the string, so a character follows them.
      rcases delayDigits_last hstr.2 0 hr with hend | ⟨digits, c, rest, rfl, hdigits, hc, hat⟩
      · omega
      · have hstr' : Stretch str (place + 1) (digits ++ c :: (rest ++ [0])) := by
          have hbody : Stretch str (place + 1) (digits ++ c :: rest ++ [0]) := hstr.2
          rwa [List.append_assoc, List.cons_append] at hbody
        refine ⟨rest, ?_, ?_, fun d hd => by simp [hd], fun h => ?_⟩
        · rw [← hrlast, hat]
          exact hstr'.append.2.2
        · rw [← hrlast, hat, List.length_append, List.length_cons]
          omega
        · rw [hdelay]
          exact Complete.delay hdigits hc h
    · rw [escape_other fuel (by rwa [hplace]) (by rwa [hplace]), Option.some.injEq] at hescape
      obtain ⟨_, rfl⟩ := Prod.mk.inj hescape
      exact ⟨l, hstr.2, by omega, fun c hc => List.mem_cons_of_mem _ hc,
        Complete.other hk hdelay⟩

theorem complete_of_within {l : List Byte} (hl : ∀ c ∈ l, c ≠ 0) {place fuel : Nat}
    (hstr : Stretch str place (l ++ [0])) {sent : Sending}
    (hsent : sendStringWithDelay t str interval fuel place = some sent)
    (hwithin : sent.Within (place + l.length)) : Complete l := by
  induction fuel generalizing l place sent with
  | zero => exact absurd hsent (by simp [sendStringWithDelay])
  | succ fuel ih =>
    cases l with
    | nil => exact Complete.nil
    | cons c l =>
      have hne : str place ≠ 0 := by
        rw [hstr.1]
        exact hl c List.mem_cons_self
      have htail : ∀ d ∈ l, d ≠ 0 := fun d hd => hl d (List.mem_cons_of_mem _ hd)
      rw [List.length_cons] at hwithin
      rcases sendStringWithDelay_cases t hsent with ⟨hend, _⟩ |
        ⟨_, hprefix, part, last, rest, hescape, hrest, rfl⟩ |
        ⟨_, hchar, rest, hrest, rfl⟩
      · exact absurd hend hne
      · -- The rest begins behind the escape, and not behind the end.
        rw [Sending.within_append] at hwithin
        have hle := not_behind t hrest hwithin.2
        have hc : c = ssQmkPrefix := hstr.1.symm.trans hprefix
        subst hc
        obtain ⟨rest', hstr', hlength, hsub, hcomplete⟩ :=
          escape_rest hstr.2 hescape (by omega)
        refine hcomplete (ih (fun d hd => htail d (hsub d hd)) hstr' hrest ?_)
        exact hwithin.2.mono (by omega)
      · rw [Sending.within_append, Sending.within_append, Sending.within_append,
          sendChar_within] at hwithin
        rw [hstr.1] at hchar hwithin
        exact Complete.char hchar hwithin.1.1.2
          (ih htail hstr.2 hrest (hwithin.2.mono (by omega)))

end

/-- The string is sent, nothing behind its end is read for that, and every lookup is
    in range. -/
def SendsWithin (t : AsciiTables) (interval : Byte) (s : Text Byte) (beyond : Nat → Byte) : Prop :=
  ∃ fuel sent, sendStringWithDelay t (s.memory beyond) interval fuel 0 = some sent ∧
    sent.Within s.bytes.length

/-- It is if the string is complete, whatever is behind it. -/
theorem send_string_within_iff (t : AsciiTables) (interval : Byte) (s : Text Byte)
    (beyond : Nat → Byte) : SendsWithin t interval s beyond ↔ Complete s.bytes := by
  have hstr := s.stretch beyond
  constructor
  · rintro ⟨fuel, sent, hsent, hwithin⟩
    exact complete_of_within t s.noZero hstr hsent (by rwa [Nat.zero_add])
  · intro h
    obtain ⟨sent, hsent, hwithin⟩ := h.sends t s.noZero hstr (Nat.lt_succ_self _)
    rw [Nat.zero_add] at hwithin
    exact ⟨_, sent, hsent, hwithin⟩

def tapOfNothing : Text Byte :=
  { bytes := [ssQmkPrefix, ssTapCode], noZero := by decide }

/-- Its end is tapped, and what is behind it is sent. -/
theorem send_string_broken :
    ¬ ∀ (t : AsciiTables) (interval : Byte) (s : Text Byte) (beyond : Nat → Byte),
      SendsWithin t interval s beyond := by
  intro h
  obtain ⟨fuel, sent, hsent, hwithin⟩ := h
    ⟨fun _ => 0, fun _ => 0, fun _ => 0, fun _ => 0⟩ 0 tapOfNothing (fun _ => 0)
  have hcomplete := complete_of_within _ tapOfNothing.noZero
    (tapOfNothing.stretch (fun _ => 0)) hsent (by rwa [Nat.zero_add])
  -- It would be an escape of three characters, and there are two.
  generalize hl : tapOfNothing.bytes = l at hcomplete
  cases hcomplete with
  | nil => exact absurd hl (by decide)
  | char hc => exact hc (List.cons.inj hl).1.symm
  | key => exact absurd (congrArg List.length hl) (by simp [tapOfNothing])
  | delay =>
    have hk := (List.cons.inj (List.cons.inj hl).2).1
    exact absurd hk (by decide)
  | other hk =>
    have hsecond := (List.cons.inj (List.cons.inj hl).2).1
    exact hk (Or.inl hsecond.symm)

end K530
