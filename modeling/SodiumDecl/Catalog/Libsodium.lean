import SodiumDecl.Catalog.Basic
import SodiumDecl.Catalog.ExtendedOnly

/-!
# The catalog of libsodium

The hand-written declarations for the wrappers of libsodium: the aliases of the output
formats, the composite results, the streaming states, and the helpers that the wrappers
add to the library.
-/

namespace SodiumDecl.Catalog

open Wrapper

/-- The helpers that the wrappers implement themselves. -/
def libsodiumHelpers : List Symbol :=
  let bytes := [("bytes", "Uint8Array")]
  let pair := [("b1", "Uint8Array"), ("b2", "Uint8Array")]
  let padding := [("buf", "Uint8Array"), ("blocksize", "number")]
  [ .helper "add" [("a", "Uint8Array"), ("b", "Uint8Array")] none,
    .helper "compare" pair (some "number"),
    .helper "from_base64" [("input", "string"), ("variant", "base64_variants")] (some "Uint8Array"),
    .helper "from_hex" [("input", "string")] (some "string"),
    .helper "from_string" [("str", "string")] (some "Uint8Array"),
    .helper "increment" bytes none,
    .helper "is_zero" bytes (some "boolean"),
    .helper "memcmp" pair (some "boolean"),
    .helper "memzero" bytes none,
    .helper "output_formats" [] (some "Array<Uint8ArrayOutputFormat | StringOutputFormat>"),
    .helper "pad" padding (some "Uint8Array"),
    .helper "to_base64" [("input", "string | Uint8Array"), ("variant", "base64_variants")]
      (some "string"),
    .helper "to_hex" [("input", "string | Uint8Array")] (some "string"),
    .helper "to_string" bytes (some "string"),
    .helper "unpad" padding (some "Uint8Array") ]

/-- The composite results. -/
def libsodiumShapes : List Shape := [
  .of "CryptoBox" "_format_output(\x7bciphertext: ciphertext, mac: mac\x7d"
    [("ciphertext", .buffer), ("mac", .buffer)],
  .of "CryptoKX" "_format_output(\x7bsharedRx: sharedRx, sharedTx: sharedTx\x7d"
    [("sharedRx", .buffer), ("sharedTx", .buffer)],
  .of "KeyPair" "\x7bpublicKey: _format_output"
    [("keyType", .fixed (.named "KeyType")), ("privateKey", .buffer), ("publicKey", .buffer)],
  .of "SecretBox" "_format_output(\x7bmac: mac, cipher: cipher\x7d"
    [("cipher", .buffer), ("mac", .buffer)]]

/-- The catalog of the wrappers of libsodium. -/
def libsodium : Catalog where
  aliases := [
    .literals OutputFormat.binary.aliasName ["uint8array"],
    .literals OutputFormat.text.aliasName ["text", "hex", "base64"],
    .literals "KeyType" ["curve25519", "ed25519", "x25519"]]
  enumerations := [
    ⟨"base64_variants", ["ORIGINAL", "ORIGINAL_NO_PADDING", "URLSAFE", "URLSAFE_NO_PADDING"]⟩]
  shapes := libsodiumShapes
  handles := [
    "generichash_state_address",
    "onetimeauth_state_address",
    "state_address",
    "secretstream_xchacha20poly1305_state_address",
    "sign_state_address"]
  auxiliarySymbols := libsodiumHelpers
  ready := ⟨"ready", "Promise<void>"⟩
  extendedOnly := extendedOnlyNames

end SodiumDecl.Catalog
