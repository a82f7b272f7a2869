import AttestationTrust.Proofs.Fetching
import AttestationTrust.Proofs.Signatures
/-!
# The chain that is checked

Verification and the revocation check each read the chain of certificates out of a BLOB's header for themselves, and a
signer would escape the check if the two could read different chains.  They cannot: of a BLOB that the root accepts the
check goes through the chain that verification has gone through, or it ends before it has looked at a certificate
(`Blob.accepted_chain_checked`).
-/
namespace AttestationTrust

open X509 (Certificate)
open Metadata (Payload)

namespace Provider

variable [Json.Limits] {p : Provider} {w : World}

/-- What a provider comes by with revocation checked has brought a chain whose certificates were all cleared. -/
theorem Obtains.exists_clears {payload : Option Payload} (h : p.Obtains w payload) (hcheck : p.revocationCheck = true)
    {blob : Bytes} (hreply : (w.network.ask p.timeout p.url).1 = .ok blob) :
    ∃ chain xs, Revocation.signingChain blob = .ok chain ∧
      w.Exchanged p.timeout (⟨p.url, .ok blob⟩ :: xs) (p.obtain w).2 ∧
      Revocation.Clears p.root (chain.filter (· ≠ p.root)) xs := by
  obtain ⟨blob', hreply', haccept, hchecked⟩ := h
  obtain rfl := Except.ok.inj (hreply.symm.trans hreply')
  have hfetch := Action.exchanged_fetch p.url p.timeout w
  rw [hreply] at hfetch
  rw [obtain_of_checked hreply haccept hcheck]
  have hok := hchecked hcheck
  rw [Revocation.checkBlob_eq, Action.bind_apply, Action.ofExcept_apply] at hok ⊢
  cases hchain : Revocation.signingChain blob with
  | error f =>
    rw [hchain] at hok
    cases hok
  | ok chain =>
    rw [hchain] at hok
    obtain ⟨xs, hworld, hclears, -⟩ := Revocation.checkAll_decides p.root (chain.filter (· ≠ p.root)) p.timeout
      (Action.fetch p.url p.timeout w).2
    exact ⟨chain, xs, rfl, hfetch.append hworld, hclears.1 hok⟩

end Provider

namespace Blob

variable [Json.Limits] in
/-- **A signer cannot escape the check.**  Of a BLOB that the root accepts, the revocation check finds the very chain
that verification has gone through, and it is not empty; or the check fails, because it cannot read the header or finds
no chain in it.  So a refresh that succeeds with revocation checked has cleared the certificates of the verified chain,
all of them but the root, in their order. -/
theorem accepted_chain_checked {root : Certificate} {blob : Bytes} {payload : Option Payload}
    (haccept : accept root blob = some payload) : ∃ chain, Verified root blob chain ∧
      (Revocation.signingChain blob = .ok chain ∧ chain ≠ [] ∨
        ∃ f, Revocation.signingChain blob = .error (.revocation f) ∧ (f = .headerNotJson ∨ f = .noChain)) ∧
      ∀ (p : Provider) (w : World), p.root = root → p.revocationCheck = true →
        (w.network.ask p.timeout p.url).1 = .ok blob → ∀ p' m, (p.refresh w).1 = .ok (p', .ok m) →
          Revocation.signingChain blob = .ok chain ∧ ∃ xs,
            w.Exchanged p.timeout (⟨p.url, .ok blob⟩ :: xs) (p.refresh w).2 ∧
            Revocation.Clears root (chain.filter (· ≠ root)) xs := by
  have haccepted : accept root blob ≠ none := by simp [haccept]
  obtain ⟨chain, hverified⟩ := exists_verified_of_accept haccepted
  have hcases := hverified.signingChain_cases
  refine ⟨chain, hverified, hcases.imp_left fun hok => ⟨hok, Revocation.signingChain_ne_nil hok⟩, ?_⟩
  rintro p w rfl hcheck hreply p' m hrefresh
  obtain ⟨hobtains, -⟩ := Provider.refresh_fst_eq_ok_iff.1 hrefresh
  obtain ⟨chain', xs, hchain', hworld, hclears⟩ := hobtains.exists_clears hcheck hreply
  obtain hok | ⟨f, herror, -⟩ := hcases
  · cases hok.symm.trans hchain'
    exact ⟨hok, xs, Provider.exchanged_refresh hworld, hclears⟩
  · cases herror.symm.trans hchain'

/-- A certificate with an Edwards key, signed by the short root. -/
def edwardsSigner : Bytes :=
  Bytes.ofNat 197
    0x3081c2306e020101300d06092a864886f70d01010b0500300c310a300806035504030c0152301e170d3236313132303034333331385a170d3430303732393034333331385a3000302a300506032b65700321005967c27af329c47cc8d5275bb2d35d9e8c673f20f8db9ef13cbf136374aa54e6300d06092a864886f70d01010b0500034100373f71c2aedb3d5cd5eae15d0a9c7339c74f9b727b31010db20fbccde186e2908536d4e468589e86df2e3206aaf9aaeef74c1d32fd57f0f65ccc001b3a109deb

/-- The header and the payload of a BLOB under that certificate, with blanks in front of them. -/
def blankedMessage : Bytes :=
  let header := Bytes.ofText "\x7b\"alg\":\"EdDSA\",\"x5c\":[\"" ++ Base64.encode edwardsSigner ++
    Bytes.ofText "\"]\x7d"
  let payload := Bytes.ofText
    "\x7b\"legalHeader\":\"\",\"no\":1,\"nextUpdate\":\"2025-02-01\",\"entries\":[]\x7d"
  [32, 13, 10, 9] ++ Base64.encodeWith .urlSafe false header ++ 46 :: Base64.encodeWith .urlSafe false payload

def blankedBlob : Bytes :=
  blankedMessage ++ 46 :: Base64.encodeWith .urlSafe false (Bytes.ofNat 64
    0x4d3c3923095a12c72a41ff6c4fa8e1ef5ce59d58e0cbcb8234d80ec3b271c79e6b36c924a4246722ca7b8f321d2e75458e46cd8bd18e54df4e7b112fd08f7100)

open scoped Json.Limits

theorem exists_accept_blankedBlob :
    ∃ m, accept Validator.shortAnchor.certificate blankedBlob = some (some m) := by
  have haccept : (accept Validator.shortAnchor.certificate blankedBlob).join.isSome = true := by decide +kernel
  obtain ⟨m, hm⟩ := Option.isSome_iff_exists.1 haccept
  exact ⟨m, Option.join_eq_some_iff.1 hm⟩

theorem accepted_chain_checked_behind_blanks : ∃ payload,
    accept Validator.shortAnchor.certificate blankedBlob = some payload ∧
    ∃ chain, Verified Validator.shortAnchor.certificate blankedBlob chain ∧
      (Revocation.signingChain blankedBlob = .ok chain ∧ chain ≠ [] ∨
        ∃ f, Revocation.signingChain blankedBlob = .error (.revocation f) ∧ (f = .headerNotJson ∨ f = .noChain)) ∧
      ∀ (p : Provider) (w : World), p.root = Validator.shortAnchor.certificate → p.revocationCheck = true →
        (w.network.ask p.timeout p.url).1 = .ok blankedBlob → ∀ p' m, (p.refresh w).1 = .ok (p', .ok m) →
          Revocation.signingChain blankedBlob = .ok chain ∧ ∃ xs,
            w.Exchanged p.timeout (⟨p.url, .ok blankedBlob⟩ :: xs) (p.refresh w).2 ∧
            Revocation.Clears Validator.shortAnchor.certificate
              (chain.filter (· ≠ Validator.shortAnchor.certificate)) xs := by
  obtain ⟨m, hm⟩ := exists_accept_blankedBlob
  exact ⟨some m, hm, accepted_chain_checked hm⟩

end Blob
end AttestationTrust
