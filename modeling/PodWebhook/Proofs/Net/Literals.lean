import PodWebhook.Proofs.Net.Numerals

/-!
How addresses are written. An address is read off the front of a text if it is written there, and
there is one way only to take the text: the groups before a double colon are as many as can be.
-/

namespace PodWebhook.Net

namespace IpAddress

def led (first : Bool) (text : List Char) : List Char := if first then text else ':' :: text

/-- Groups one after the other, and whether the last two of them are written as octets. -/
inductive Run : Bool → List UInt16 → Bool → List Char → Prop
  | nothing {first : Bool} : Run first [] false []
  | octets {first : Bool} {o : Octets} {text : List Char} (h : o.Spelled text) :
      Run first o.toGroups true (led first text)
  | group {first ends : Bool} {digits others : List Char} {n : UInt16} {groups : List UInt16}
      (h : Numeral groupForm digits n.toNat) (rest : Run false groups ends others) :
      Run first (n :: groups) ends (led first (digits ++ others))

/-- Eight groups; or fewer, and zeros in the place of a double colon. Octets may come last, and not
in front of a double colon. -/
inductive V6 : List UInt16 → List Char → Prop
  | whole {groups : List UInt16} {ends : Bool} {text : List Char} (h : Run true groups ends text)
      (eight : groups.length = 8) : V6 groups text
  | short {head tail : List UInt16} {ends : Bool} {before behind : List Char}
      (first : Run true head false before) (last : Run true tail ends behind)
      (room : head.length + tail.length < 8) :
      V6 (head ++ List.replicate (8 - head.length - tail.length) 0 ++ tail)
        (before ++ ':' :: ':' :: behind)

/-- The scope of an address is a number behind a percent sign, and zero if nothing is said. -/
inductive Scoped : UInt32 → List Char → Prop
  | plain : Scoped 0 []
  | number {n : UInt32} {digits : List Char} (h : Numeral scopeForm digits n.toNat) :
      Scoped n ('%' :: digits)

/-- The literals of an address: octets, or groups in brackets with or without a scope. -/
inductive Spelled : IpAddress → List Char → Prop
  | v4 {o : Octets} {text : List Char} (h : o.Spelled text) : Spelled (.v4 o) text
  | v6 {groups : List UInt16} {scope : UInt32} {text scopeText : List Char} (h : V6 groups text)
      (within : Scoped scope scopeText) :
      Spelled (.v6 groups scope) ('[' :: (text ++ (scopeText ++ [']'])))

inductive Stops : List Char → Prop
  | colons (rest : List Char) : Stops (':' :: ':' :: rest)
  | percent (rest : List Char) : Stops ('%' :: rest)
  | bracket (rest : List Char) : Stops (']' :: rest)

def Delimits (rest : List Char) : Prop :=
  ∃ c others, rest = c :: others ∧ (c = ':' ∨ c = '%' ∨ c = ']')

section

variable {first ends : Bool} {groups : List UInt16} {text rest digits : List Char}

theorem led_append (first : Bool) (text rest : List Char) :
    led first text ++ rest = led first (text ++ rest) := by
  cases first <;> rfl

theorem readSeparator_eq_some_iff :
    readSeparator first text = some rest ↔ text = led first rest := by
  cases first with
  | true => exact Option.some_inj
  | false => exact readChar_eq_some_iff

theorem readSeparator_bind {α : Type} (first : Bool) (text : List Char)
    (f : List Char → Option α) : (readSeparator first (led first text)).bind f = f text := by
  rw [readSeparator_eq_some_iff.mpr rfl, Option.bind_some]

theorem run_of_readGroups (first : Bool) (text : List Char) (count : Nat) :
    ∃ spelled, Run first (readGroups first text count).groups
        (readGroups first text count).endsInOctets spelled ∧
      text = spelled ++ (readGroups first text count).rest ∧
      (readGroups first text count).groups.length ≤ count := by
  -- The count bounds what is still read, so that octets are only looked for where two groups fit.
  induction count generalizing first text with
  | zero => exact ⟨[], .nothing, rfl, Nat.le_refl 0⟩
  | succ count ih =>
      rw [readGroups]
      split
      · next o rest found =>
        obtain ⟨more, found⟩ := Option.ite_none_left_eq_some.mp found
        obtain ⟨behind, separated, octets⟩ := Option.bind_eq_some_iff.mp found
        obtain rfl := readSeparator_eq_some_iff.mp separated
        obtain ⟨literal, spelled, rfl, -⟩ := Octets.read_eq_some_iff.mp octets
        exact ⟨_, .octets spelled, (led_append ..).symm,
          Nat.succ_le_succ (Nat.one_le_iff_ne_zero.mpr more)⟩
      · split
        · exact ⟨[], .nothing, rfl, Nat.zero_le _⟩
        · next n rest found =>
          obtain ⟨behind, separated, number⟩ := Option.bind_eq_some_iff.mp found
          obtain rfl := readSeparator_eq_some_iff.mp separated
          obtain ⟨digits, numeral, rfl, -⟩ := readNumber_eq_some_iff.mp number
          obtain ⟨others, run, whole, length⟩ := ih false rest
          have group : Numeral groupForm digits (UInt16.ofNat n).toNat := by
            rwa [UInt16.toNat_ofNat_of_lt' (Nat.lt_succ_of_le numeral.bound)]
          refine ⟨_, .group group run, ?_, Nat.succ_le_succ length⟩
          rw [led_append, List.append_assoc, ← whole]

theorem Stops.delimits (h : Stops rest) : Delimits rest := by
  cases h with
  | colons rest => exact ⟨_, _, rfl, .inl rfl⟩
  | percent rest => exact ⟨_, _, rfl, .inr (.inl rfl)⟩
  | bracket rest => exact ⟨_, _, rfl, .inr (.inr rfl)⟩

theorem Run.delimits (h : Run false groups ends text) (stop : Stops rest) :
    Delimits (text ++ rest) := by
  generalize next : false = first at h
  cases h with
  | nothing => exact stop.delimits
  | octets h =>
      subst next
      exact ⟨_, _, rfl, .inl rfl⟩
  | group h others =>
      subst next
      exact ⟨_, _, rfl, .inl rfl⟩

theorem Delimits.noDigit (h : Delimits rest) {base : Nat} (known : base = 10 ∨ base = 16) :
    NoDigit base rest := by
  obtain ⟨c, others, rfl, rfl | rfl | rfl⟩ := h <;> rcases known with rfl | rfl <;>
    exact noDigit_cons (by rfl) others

/-- Digits of a group are not taken for the first octet, as no dot follows them. -/
theorem read_octets_group {n : Nat} (numeral : Numeral groupForm digits n) (h : Delimits rest) :
    Octets.read (digits ++ rest) = none := by
  rw [Option.eq_none_iff_forall_ne_some]
  rintro ⟨o, behind⟩ found
  obtain ⟨_, ⟨a, b, c, d, octet, -, -, -, rfl⟩, whole, -⟩ := Octets.read_eq_some_iff.mp found
  rw [List.append_assoc, List.cons_append] at whole
  have dot : ∀ others, rest ≠ '.' :: others := by
    rintro others rfl
    obtain ⟨_, _, same, h⟩ := h
    obtain ⟨rfl, -⟩ := List.cons.inj same
    exact absurd h (by decide)
  rcases List.append_eq_append_iff.mp whole with ⟨cut, octets, rfl⟩ | ⟨cut, group, same⟩
  · cases cut with
    | nil => exact dot _ rfl
    | cons c cut =>
        have digit : isDigit octetForm.base c = true := octet.digit c (octets ▸ by simp)
        have none := h.noDigit (.inl rfl) c rfl
        exact absurd (digit.symm.trans none) nofun
  · cases cut with
    | nil => exact dot _ same.symm
    | cons c cut =>
        obtain ⟨rfl, -⟩ := List.cons.inj same
        have absent : '.' ∉ digits := numeral.not_mem (by rfl)
        exact absent (by simp [group])

theorem readGroups_stops (first : Bool) (stop : Stops rest) (count : Nat) :
    readGroups first rest count = ⟨[], false, rest⟩ := by
  have octets : (readSeparator first rest).bind Octets.read = none := by
    cases stop <;> cases first <;> rfl
  have group : (readSeparator first rest).bind (readNumber groupForm) = none := by
    cases stop <;> cases first <;> rfl
  cases count with
  | zero => rfl
  | succ count => simp only [readGroups, octets, group, ite_self]

theorem readGroups_run (run : Run first groups ends text) (stop : Stops rest) {count : Nat}
    (room : groups.length ≤ count) :
    readGroups first (text ++ rest) count = ⟨groups, ends, rest⟩ := by
  -- Of a group the reader first makes sure that it is no octet, which takes the text behind it.
  induction run generalizing count with
  | nothing => exact readGroups_stops _ stop count
  | @octets first o text spelled =>
      obtain ⟨count, rfl⟩ : ∃ more, count = more + 2 := ⟨_, (Nat.sub_add_cancel room).symm⟩
      have found : Octets.read (text ++ rest) = some (o, rest) :=
        Octets.read_eq_some_iff.mpr ⟨text, spelled, rfl, stop.delimits.noDigit (.inl rfl)⟩
      rw [led_append, readGroups, if_neg count.succ_ne_zero, readSeparator_bind, found]
  | @group first ends digits others n groups numeral run ih =>
      obtain ⟨count, rfl⟩ : ∃ more, count = more + 1 := ⟨_, (Nat.sub_add_cancel
        (Nat.le_trans (Nat.succ_le_succ (Nat.zero_le _)) room)).symm⟩
      have behind := run.delimits stop
      have found : readNumber groupForm (digits ++ (others ++ rest)) =
          some (n.toNat, others ++ rest) :=
        readNumber_eq_some_iff.mpr ⟨digits, numeral, rfl, behind.noDigit (.inr rfl)⟩
      rw [led_append, List.append_assoc, readGroups, readSeparator_bind, readSeparator_bind, found,
        read_octets_group numeral behind, ite_self]
      simp only [ih (Nat.le_of_succ_le_succ room), UInt16.ofNat_toNat]

theorem v6_of_readV6 (h : readV6 text = some (groups, rest)) :
    ∃ spelled, V6 groups spelled ∧ text = spelled ++ rest := by
  obtain ⟨before, run, whole, bound⟩ := run_of_readGroups true text 8
  simp only [readV6] at h
  generalize readGroups true text 8 = head at *
  split at h
  · next eight =>
    obtain ⟨rfl, rfl⟩ := Prod.mk.inj (Option.some.inj h)
    exact ⟨before, .whole run eight, whole⟩
  · next fewer =>
    split at h
    · cases h
    · next inGroups =>
      rw [Bool.eq_false_iff.mpr inGroups] at run
      simp only [Option.bind_eq_bind, Option.bind_eq_some_iff, readChar_eq_some_iff] at h
      obtain ⟨_, first, behind, rfl, h⟩ := h
      obtain ⟨last, tail, rest, room⟩ := run_of_readGroups true behind (7 - head.groups.length)
      obtain ⟨rfl, rfl⟩ := Prod.mk.inj (Option.some.inj h)
      refine ⟨_, .short run tail (by omega), ?_⟩
      rw [whole, first, List.append_assoc, List.cons_append, List.cons_append, ← rest]

theorem readV6_of_v6 (h : V6 groups text) (stop : Stops rest) :
    readV6 (text ++ rest) = some (groups, rest) := by
  cases h with
  | whole run eight =>
      unfold readV6
      rw [readGroups_run run stop (Nat.le_of_eq eight)]
      exact if_pos eight
  | @short head tail ends before behind first last room =>
      have colons := Stops.colons (behind ++ rest)
      have read := readGroups_run first colons (show head.length ≤ 8 by omega)
      have readLast := readGroups_run last stop (show tail.length ≤ 7 - head.length by omega)
      rw [List.append_assoc, List.cons_append, List.cons_append]
      unfold readV6
      rw [read]
      simp only [if_neg (show head.length ≠ 8 by omega), Bool.false_eq_true, if_false,
        Option.bind_eq_bind, readChar_eq_some_iff.mpr rfl, Option.bind_some, readLast]

theorem scoped_of_readScope {scope : UInt32} (h : readScope text = (scope, rest)) :
    ∃ spelled, Scoped scope spelled ∧ text = spelled ++ rest := by
  unfold readScope at h
  split at h
  · next n behind found =>
    obtain ⟨_, percent, number⟩ := Option.bind_eq_some_iff.mp found
    obtain rfl := readChar_eq_some_iff.mp percent
    obtain ⟨digits, numeral, rfl, -⟩ := readNumber_eq_some_iff.mp number
    obtain ⟨rfl, rfl⟩ := Prod.mk.inj h
    have scope : Numeral scopeForm digits (UInt32.ofNat n).toNat := by
      rwa [UInt32.toNat_ofNat_of_lt' (Nat.lt_succ_of_le numeral.bound)]
    exact ⟨_, .number scope, rfl⟩
  · obtain ⟨rfl, rfl⟩ := Prod.mk.inj h
    exact ⟨[], .plain, rfl⟩

theorem readScope_of_scoped {scope : UInt32} (h : Scoped scope text) (rest : List Char) :
    readScope (text ++ ']' :: rest) = (scope, ']' :: rest) := by
  cases h with
  | plain => rfl
  | @number _ digits numeral =>
      have stop : NoDigit scopeForm.base (']' :: rest) := noDigit_cons (by rfl) rest
      have found : readNumber scopeForm (digits ++ ']' :: rest) = some (scope.toNat, ']' :: rest) :=
        readNumber_eq_some_iff.mpr ⟨digits, numeral, rfl, stop⟩
      rw [List.cons_append, readScope, readChar_eq_some_iff.mpr rfl, Option.bind_some, found]
      simp only [UInt32.ofNat_toNat]

end

section

variable {ip : IpAddress} {literal : List Char}

theorem spelled_of_read {text rest : List Char} (h : read text = some (ip, rest)) :
    ∃ literal, ip.Spelled literal ∧ text = literal ++ rest := by
  unfold read at h
  split at h
  · next o behind found =>
    obtain ⟨rfl, rfl⟩ := Prod.mk.inj (Option.some.inj h)
    obtain ⟨literal, spelled, rfl, -⟩ := Octets.read_eq_some_iff.mp found
    exact ⟨literal, .v4 spelled, rfl⟩
  · simp only [Option.bind_eq_bind, Option.bind_eq_some_iff, readChar_eq_some_iff, Prod.exists] at h
    obtain ⟨_, rfl, groups, behind, found, _, closed, same⟩ := h
    obtain ⟨v6Text, v6, rfl⟩ := v6_of_readV6 found
    obtain ⟨scopeText, within, split⟩ := scoped_of_readScope (Prod.eta (readScope behind)).symm
    obtain ⟨rfl, rfl⟩ := Prod.mk.inj (Option.some.inj same)
    refine ⟨_, .v6 v6 within, ?_⟩
    rw [split, closed]
    simp

theorem stops_of_scoped {scope : UInt32} {scopeText : List Char} (h : Scoped scope scopeText)
    (rest : List Char) : Stops (scopeText ++ ']' :: rest) := by
  cases h with
  | plain => exact .bracket _
  | number _ => exact .percent _

theorem read_of_spelled (h : ip.Spelled literal) (rest : List Char) :
    read (literal ++ ':' :: rest) = some (ip, ':' :: rest) := by
  cases h with
  | @v4 o _ spelled =>
      have stop : NoDigit 10 (':' :: rest) := noDigit_cons (by rfl) rest
      rw [read, Octets.read_eq_some_iff.mpr ⟨literal, spelled, rfl, stop⟩]
  | @v6 groups scope v6Text scopeText v6 within =>
      have bracket (others : List Char) : Octets.read ('[' :: others) = none := rfl
      have whole : '[' :: (v6Text ++ (scopeText ++ [']'])) ++ ':' :: rest =
          '[' :: (v6Text ++ (scopeText ++ ']' :: ':' :: rest)) := by
        simp
      rw [whole, read, bracket]
      simp only [Option.bind_eq_bind, readChar_eq_some_iff.mpr rfl, Option.bind_some,
        readV6_of_v6 v6 (stops_of_scoped within _), readScope_of_scoped within]

theorem Spelled.unique (h : ip.Spelled literal) {other : IpAddress} (h' : other.Spelled literal) :
    other = ip :=
  (Prod.mk.inj (Option.some.inj ((read_of_spelled h' []).symm.trans (read_of_spelled h [])))).1

theorem Spelled.exists_v6 (h : ip.Spelled literal) (colon : ':' ∈ literal) :
    ∃ groups scope, ip = .v6 groups scope := by
  cases h with
  | v4 h =>
      obtain ⟨a, b, c, d, numeralA, numeralB, numeralC, numeralD, rfl⟩ := h
      have none {digits : List Char} {n : Nat} (h : Numeral octetForm digits n) : ':' ∉ digits :=
        h.not_mem (by rfl)
      simp [none numeralA, none numeralB, none numeralC, none numeralD] at colon
  | v6 h within => exact ⟨_, _, rfl⟩

end

end IpAddress

/-- An address with a port is the literal of the one, a colon and the digits of the other. -/
theorem SocketAddress.parse?_eq_some_iff {text : String} {ip : IpAddress} {port : UInt16} :
    parse? text = some ⟨ip, port⟩ ↔
      ∃ literal digits, text.toList = literal ++ ':' :: digits ∧ ip.Spelled literal ∧
        Numeral portForm digits port.toNat := by
  simp only [parse?, Option.bind_eq_bind, Option.bind_eq_some_iff, Prod.exists,
    readChar_eq_some_iff, Option.ite_none_right_eq_some, List.isEmpty_iff, Option.some.injEq,
    SocketAddress.mk.injEq]
  constructor
  · rintro ⟨_, _, found, behind, rfl, n, _, number, rfl, rfl, rfl⟩
    obtain ⟨literal, spelled, whole⟩ := IpAddress.spelled_of_read found
    obtain ⟨digits, numeral, rfl, -⟩ := readNumber_eq_some_iff.mp number
    rw [List.append_nil] at whole
    refine ⟨literal, digits, whole, spelled, ?_⟩
    rwa [UInt16.toNat_ofNat_of_lt' (Nat.lt_succ_of_le numeral.bound)]
  · rintro ⟨literal, digits, whole, spelled, numeral⟩
    have stop : NoDigit portForm.base [] := nofun
    refine ⟨ip, ':' :: digits, whole ▸ IpAddress.read_of_spelled spelled digits, digits, rfl,
      port.toNat, [], readNumber_eq_some_iff.mpr ⟨digits, numeral, by simp, stop⟩, rfl, rfl, ?_⟩
    exact UInt16.ofNat_toNat

example : SocketAddress.parse? "[1::192.0.2.7%3]:0080" =
    some ⟨.v6 [1, 0, 0, 0, 0, 0, 49152, 519] 3, 80⟩ := by
  decide +kernel

end PodWebhook.Net
