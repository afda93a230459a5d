import Espejismo.Ingress.HttpProxy
import Espejismo.Ingress.Socks5

/-!
# Ingress.Auth

Local proxy authentication: with `local.auth` set, neither proxy yields a target
unless the application showed the user name and the password.
-/

namespace Espejismo

open scoped Standard

/-- **Authentication cannot be bypassed**, for every stream and however it
arrives: a request is accepted only after the credentials, in the form each
protocol has for them. -/
theorem proxy_auth_required [Codecs] (auth : ProxyAuth) (stream : ClientStream) :
    (∀ request stream',
      (Socks5.acceptRequestWithAuth (some auth)).run stream = .ok request stream' →
      ∃ methods rest, methods.length < 256 ∧ 0x02 ∈ methods ∧
        stream.incoming.bytes = 5 :: UInt8.ofNat methods.length :: methods ++
          Socks5.passwordMessage auth ++ rest) ∧
    (∀ target stream',
      (acceptHttpProxyWithAuth (some auth)).run stream = .ok target stream' →
      ∃ text rest, IsHeader (utf8Bytes text) ∧ stream.incoming.bytes = utf8Bytes text ++ rest ∧
        ShowsCredentials text auth) :=
  ⟨fun _ _ => Socks5.acceptRequestWithAuth_eq_ok, fun _ _ => acceptHttpProxyWithAuth_eq_ok⟩

def sampleHeader : List Char :=
  "CONNECT a.example:443 HTTP/1.1\r\nProxy-Authorization: Basic dXNlcjpwYXNz\r\n\r\n".toList

def sampleStream : ClientStream where
  incoming := { pieces := [⟨utf8Bytes sampleHeader, by decide⟩] }

theorem acceptHttpProxyWithAuth_sample :
    ∃ target stream', (acceptHttpProxyWithAuth (some ⟨"user", "pass"⟩)).run sampleStream =
      .ok target stream' := by
  have hre : (readHeader (httpProxyMaxHeaderSize + 1) []).run sampleStream =
      .ok (utf8Bytes sampleHeader, none) { incoming := { pieces := [] } } := rfl
  have hpa : ∃ target stream', (parseAndRespond (utf8Bytes sampleHeader)
      (some ⟨"user", "pass"⟩) none).run { incoming := { pieces := [] } } = .ok target stream' := by
    exact ⟨_, _, rfl⟩
  obtain ⟨target, stream', hpa⟩ := hpa
  exact ⟨target, stream', run_bind_eq_ok.mpr ⟨_, _, hre, hpa⟩⟩

def sampleSocksStream : ClientStream where
  incoming := { pieces := [⟨[5, 1, 2], by decide⟩, ⟨1 :: 4 :: utf8Bytes "user".toList, by decide⟩,
    ⟨4 :: utf8Bytes "pass".toList ++ [5, 1, 0, 1, 8, 8, 8, 8, 1, 187], by decide⟩] }

theorem proxy_auth_required_sample :
    (∃ methods rest, methods.length < 256 ∧ 0x02 ∈ methods ∧
      sampleSocksStream.incoming.bytes = 5 :: UInt8.ofNat methods.length :: methods ++
        Socks5.passwordMessage ⟨"user", "pass"⟩ ++ rest) ∧
    ∃ text rest, IsHeader (utf8Bytes text) ∧
      sampleStream.incoming.bytes = utf8Bytes text ++ rest ∧
      ShowsCredentials text ⟨"user", "pass"⟩ := by
  obtain ⟨target, stream', hac⟩ := acceptHttpProxyWithAuth_sample
  exact ⟨(proxy_auth_required ⟨"user", "pass"⟩ sampleSocksStream).1 _ _ rfl,
    (proxy_auth_required ⟨"user", "pass"⟩ sampleStream).2 target stream' hac⟩

end Espejismo
