import RtProxy.Permissions.HostPort
import RtProxy.Socks5.Addresses

/-!
Joining a host and a port and splitting them again (`join_host_port` in `socks5.rs`,
`split_host_port` in `permissions.rs`).

A SOCKS target is joined before the access check splits it.  The host that is checked is
the host that was asked for, as long as it has no brackets of its own.
-/

namespace RtProxy
namespace Permissions

open Socks5 (joinHostPort_of_colon joinHostPort_of_not_colon)

variable {host addr : String} {port : UInt16}

theorem splitHostPort_join (hopen : '[' ∉ host.toList) (hclose : ']' ∉ host.toList)
    (port : UInt16) : splitHostPort (Socks5.joinHostPort host port) = .ok (host, portText port) := by
  have hport := not_mem_of_parseUnsigned (parseUnsigned_portText port)
  apply splitHostPort_eq_ok.mpr
  refine ⟨⟨hopen, hclose⟩, hport, ?_⟩
  by_cases hcolon : ':' ∈ host.toList
  · exact .inl (joinHostPort_of_colon hcolon port)
  · exact .inr ⟨hcolon, joinHostPort_of_not_colon hcolon port⟩

/-- The brackets that were there are put back, and no others. -/
theorem joinHostPort_of_split (h : splitHostPort addr = .ok (host, portText port))
    (hbracket : ':' ∈ host.toList ↔ addr.toList.head? = some '[') :
    Socks5.joinHostPort host port = addr := by
  obtain ⟨-, -, rfl | ⟨hcolon, rfl⟩⟩ := splitHostPort_eq_ok.mp h
  · have hcolon : ':' ∈ host.toList := by
      rw [hbracket, toList_bracketed]
      rfl
    exact joinHostPort_of_colon hcolon port
  · exact joinHostPort_of_not_colon hcolon port

/-- Splitting takes back what joining put together, and joining what splitting took apart
if a host is in brackets just when it has a colon. -/
theorem join_split_inverse (host : String) (port : UInt16) :
    ('[' ∉ host.toList → ']' ∉ host.toList →
      splitHostPortAt (Socks5.joinHostPort host port) = .ok (.ok (host, portText port))) ∧
    ∀ addr, splitHostPortAt addr = .ok (.ok (host, portText port)) →
      (':' ∈ host.toList ↔ addr.toList.head? = some '[') →
        Socks5.joinHostPort host port = addr := by
  refine ⟨fun hopen hclose => ?_, fun addr h hbracket => ?_⟩
  · rw [splitHostPortAt_eq, splitHostPort_join hopen hclose]
  · rw [splitHostPortAt_eq] at h
    exact joinHostPort_of_split (Except.ok.inj h) hbracket

/-- An IPv6 literal there and back. -/
theorem join_split_loopback :
    splitHostPortAt (Socks5.joinHostPort "::1" 443) = .ok (.ok ("::1", "443")) ∧
      Socks5.joinHostPort "::1" 443 = "[::1]:443" := by
  have hsplit := (join_split_inverse "::1" 443).1 (by decide) (by decide)
  have hjoin := (join_split_inverse "::1" 443).2 "[::1]:443" (by decide) (by decide)
  exact ⟨hsplit, hjoin⟩

end Permissions
end RtProxy
