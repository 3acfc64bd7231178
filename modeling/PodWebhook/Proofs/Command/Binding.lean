import PodWebhook.Command.Line
import PodWebhook.Proofs.Command.Configuration
import PodWebhook.Proofs.Net.Literals

/-!
The address to listen on, out of two values that are joined. Unless the port has a colon in it, each
value is taken for what it is by itself. If it has one, the last colon counts and not the one that
joins them: the address is an IPv6 literal that begins in the one value and is closed in the other.
-/

namespace PodWebhook.Config

open Net

def BindsApart (value : Command.Setting → String) (ip : IpAddress) (port : UInt16) : Prop :=
  ip.Spelled (value .address).toList ∧ Numeral portForm (value .port).toList port.toNat

/-- A literal that is closed in the value for the port, where the numeral comes behind it. -/
def BindsAcross (value : Command.Setting → String) (ip : IpAddress) (port : UInt16) : Prop :=
  ∃ rest digits, (value .port).toList = rest ++ ':' :: digits ∧
    (∃ groups scope, ip = .v6 groups scope) ∧
    ip.Spelled ((value .address).toList ++ ':' :: rest) ∧ Numeral portForm digits port.toNat

theorem append_cons_eq_iff {α : Type} {colon : α} {front behind literal digits : List α}
    (last : colon ∉ digits) :
    front ++ colon :: behind = literal ++ colon :: digits ↔
      (front = literal ∧ behind = digits) ∨
        ∃ rest, literal = front ++ colon :: rest ∧ behind = rest ++ colon :: digits := by
  rw [Text.append_cons_eq_append_cons_iff, or_congr_right (or_iff_left _)]
  rintro ⟨cut, -, rfl⟩
  exact last List.mem_append_cons_self

section

variable {value : Command.Setting → String} {ip : IpAddress} {port : UInt16}

theorem exists_ofValues_iff {address : SocketAddress} :
    (∃ config, ofValues value = .ok config ∧ config.address = address) ↔
      Paired value ∧ value .targetImage ≠ "" ∧
        SocketAddress.parse? (addressText value) = some address := by
  constructor
  · rintro ⟨config, made, rfl⟩
    obtain ⟨-, paired, image⟩ := (judged value).ok.mp ⟨config, made⟩
    exact ⟨paired, image, (shows_of_ofValues made).address⟩
  · rintro ⟨paired, image, parsed⟩
    obtain ⟨config, made⟩ := (judged value).ok.mpr ⟨by simp [parsed], paired, image⟩
    have shown := (shows_of_ofValues made).address
    exact ⟨config, made, Option.some.inj (shown.symm.trans parsed)⟩

theorem BindsApart.not_mem (h : BindsApart value ip port) : ':' ∉ (value .port).toList :=
  h.2.not_mem (by rfl)

theorem BindsAcross.mem (h : BindsAcross value ip port) : ':' ∈ (value .port).toList := by
  obtain ⟨rest, digits, whole, -⟩ := h
  simp [whole]

theorem parse?_addressText_eq_some_iff :
    SocketAddress.parse? (addressText value) = some ⟨ip, port⟩ ↔
      BindsApart value ip port ∨ BindsAcross value ip port := by
  have joined : (addressText value).toList =
      (value .address).toList ++ ':' :: (value .port).toList := by
    simp [addressText, String.toList_append]
  rw [SocketAddress.parse?_eq_some_iff, joined]
  constructor
  · rintro ⟨literal, digits, whole, spelled, numeral⟩
    rcases (append_cons_eq_iff (numeral.not_mem (by rfl))).mp whole with
      ⟨rfl, rfl⟩ | ⟨rest, rfl, behind⟩
    · exact .inl ⟨spelled, numeral⟩
    · exact .inr ⟨rest, digits, behind, spelled.exists_v6 (by simp), spelled, numeral⟩
  · rintro (⟨spelled, numeral⟩ | ⟨rest, digits, behind, -, spelled, numeral⟩)
    · exact ⟨_, _, rfl, spelled, numeral⟩
    · exact ⟨_, digits, by simp [behind], spelled, numeral⟩

end

/-- Which address the program listens on. Without a colon in the port, address and port are taken
as they are given; with one they are not, and part of the port is read as part of the address. -/
theorem ofValues_binds (value : Command.Setting → String) (ip : IpAddress) (port : UInt16) :
    (∃ config, ofValues value = .ok config ∧ config.address = ⟨ip, port⟩) ↔
      Paired value ∧ value .targetImage ≠ "" ∧
        if ':' ∈ (value .port).toList then BindsAcross value ip port
        else BindsApart value ip port := by
  rw [exists_ofValues_iff, parse?_addressText_eq_some_iff]
  refine and_congr_right fun _ => and_congr_right fun _ => ?_
  split
  · next colon => exact or_iff_right fun apart => apart.not_mem colon
  · next none => exact or_iff_left fun across => none across.mem

/-- A bracket is no address and what closes it is no port, yet together they are taken. -/
theorem ofValues_binds_bracket :
    let given : Command.Given := [(.port, ":1]:80"), (.address, "[")]
    Command.read ["--addr", "[", "--port", ":1]:80"] [] = .ok given ∧
      (∃ config, ofValues given.value = .ok config ∧
        config.address = ⟨.v6 [0, 0, 0, 0, 0, 0, 0, 1] 0, 80⟩) ∧
      BindsAcross given.value (.v6 [0, 0, 0, 0, 0, 0, 0, 1] 0) 80 := by
  intro given
  have taken : ∃ config, ofValues given.value = .ok config ∧
      config.address = ⟨.v6 [0, 0, 0, 0, 0, 0, 0, 1] 0, 80⟩ :=
    exists_ofValues_iff.mpr ⟨by decide, by decide, by decide +kernel⟩
  have bound := ((ofValues_binds given.value _ _).mp taken).2.2
  rw [if_pos (by decide)] at bound
  exact ⟨by decide +kernel, taken, bound⟩

end PodWebhook.Config
