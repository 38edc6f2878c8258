/-!
# Names of the extended build

The symbols and constants that only the extended build of the wrappers has, in lower case.
-/

namespace SodiumDecl.Catalog

/-- The names that only the extended build has. -/
def extendedOnlyNames : List String := [
  "crypto_auth_hmacsha256",
  "crypto_auth_hmacsha256_bytes",
  "crypto_auth_hmacsha256_final",
  "crypto_auth_hmacsha256_init",
  "crypto_auth_hmacsha256_keybytes",
  "crypto_auth_hmacsha256_keygen",
  "crypto_auth_hmacsha256_update",
  "crypto_auth_hmacsha256_verify",
  "crypto_auth_hmacsha512",
  "crypto_auth_hmacsha512_bytes",
  "crypto_auth_hmacsha512_final",
  "crypto_auth_hmacsha512_init",
  "crypto_auth_hmacsha512_keybytes",
  "crypto_auth_hmacsha512_keygen",
  "crypto_auth_hmacsha512_update",
  "crypto_auth_hmacsha512_verify",
  "crypto_box_curve25519xchacha20poly1305_beforenmbytes",
  "crypto_box_curve25519xchacha20poly1305_easy",
  "crypto_box_curve25519xchacha20poly1305_keypair",
  "crypto_box_curve25519xchacha20poly1305_macbytes",
  "crypto_box_curve25519xchacha20poly1305_noncebytes",
  "crypto_box_curve25519xchacha20poly1305_open_easy",
  "crypto_box_curve25519xchacha20poly1305_publickeybytes",
  "crypto_box_curve25519xchacha20poly1305_seal",
  "crypto_box_curve25519xchacha20poly1305_seal_open",
  "crypto_box_curve25519xchacha20poly1305_sealbytes",
  "crypto_box_curve25519xchacha20poly1305_secretkeybytes",
  "crypto_box_curve25519xchacha20poly1305_seed_keypair",
  "crypto_box_curve25519xchacha20poly1305_seedbytes",
  "crypto_core_ed25519_add",
  "crypto_core_ed25519_bytes",
  "crypto_core_ed25519_from_hash",
  "crypto_core_ed25519_from_uniform",
  "crypto_core_ed25519_hashbytes",
  "crypto_core_ed25519_is_valid_point",
  "crypto_core_ed25519_nonreducedscalarbytes",
  "crypto_core_ed25519_random",
  "crypto_core_ed25519_scalar_add",
  "crypto_core_ed25519_scalar_complement",
  "crypto_core_ed25519_scalar_invert",
  "crypto_core_ed25519_scalar_mul",
  "crypto_core_ed25519_scalar_negate",
  "crypto_core_ed25519_scalar_random",
  "crypto_core_ed25519_scalar_reduce",
  "crypto_core_ed25519_scalar_sub",
  "crypto_core_ed25519_scalarbytes",
  "crypto_core_ed25519_sub",
  "crypto_core_ed25519_uniformbytes",
  "crypto_core_hchacha20",
  "crypto_core_hchacha20_constbytes",
  "crypto_core_hchacha20_inputbytes",
  "crypto_core_hchacha20_keybytes",
  "crypto_core_hchacha20_outputbytes",
  "crypto_core_hsalsa20",
  "crypto_core_hsalsa20_constbytes",
  "crypto_core_hsalsa20_inputbytes",
  "crypto_core_hsalsa20_keybytes",
  "crypto_core_hsalsa20_outputbytes",
  "crypto_core_ristretto255_add",
  "crypto_core_ristretto255_bytes",
  "crypto_core_ristretto255_from_hash",
  "crypto_core_ristretto255_hashbytes",
  "crypto_core_ristretto255_is_valid_point",
  "crypto_core_ristretto255_nonreducedscalarbytes",
  "crypto_core_ristretto255_random",
  "crypto_core_ristretto255_scalar_add",
  "crypto_core_ristretto255_scalar_complement",
  "crypto_core_ristretto255_scalar_invert",
  "crypto_core_ristretto255_scalar_mul",
  "crypto_core_ristretto255_scalar_negate",
  "crypto_core_ristretto255_scalar_random",
  "crypto_core_ristretto255_scalar_reduce",
  "crypto_core_ristretto255_scalar_sub",
  "crypto_core_ristretto255_scalarbytes",
  "crypto_core_ristretto255_sub",
  "crypto_generichash_blake2b_salt_personal",
  "crypto_hash_sha256",
  "crypto_hash_sha256_bytes",
  "crypto_hash_sha256_final",
  "crypto_hash_sha256_init",
  "crypto_hash_sha256_update",
  "crypto_hash_sha512",
  "crypto_hash_sha512_bytes",
  "crypto_hash_sha512_final",
  "crypto_hash_sha512_init",
  "crypto_hash_sha512_update",
  "crypto_onetimeauth",
  "crypto_onetimeauth_bytes",
  "crypto_onetimeauth_final",
  "crypto_onetimeauth_init",
  "crypto_onetimeauth_keybytes",
  "crypto_onetimeauth_keygen",
  "crypto_onetimeauth_update",
  "crypto_onetimeauth_verify",
  "crypto_pwhash_scryptsalsa208sha256",
  "crypto_pwhash_scryptsalsa208sha256_bytes_max",
  "crypto_pwhash_scryptsalsa208sha256_bytes_min",
  "crypto_pwhash_scryptsalsa208sha256_ll",
  "crypto_pwhash_scryptsalsa208sha256_memlimit_interactive",
  "crypto_pwhash_scryptsalsa208sha256_memlimit_max",
  "crypto_pwhash_scryptsalsa208sha256_memlimit_min",
  "crypto_pwhash_scryptsalsa208sha256_memlimit_sensitive",
  "crypto_pwhash_scryptsalsa208sha256_opslimit_interactive",
  "crypto_pwhash_scryptsalsa208sha256_opslimit_max",
  "crypto_pwhash_scryptsalsa208sha256_opslimit_min",
  "crypto_pwhash_scryptsalsa208sha256_opslimit_sensitive",
  "crypto_pwhash_scryptsalsa208sha256_passwd_max",
  "crypto_pwhash_scryptsalsa208sha256_passwd_min",
  "crypto_pwhash_scryptsalsa208sha256_saltbytes",
  "crypto_pwhash_scryptsalsa208sha256_str",
  "crypto_pwhash_scryptsalsa208sha256_str_needs_rehash",
  "crypto_pwhash_scryptsalsa208sha256_str_verify",
  "crypto_pwhash_scryptsalsa208sha256_strbytes",
  "crypto_pwhash_scryptsalsa208sha256_strprefix",
  "crypto_scalarmult_ed25519",
  "crypto_scalarmult_ed25519_base",
  "crypto_scalarmult_ed25519_base_noclamp",
  "crypto_scalarmult_ed25519_bytes",
  "crypto_scalarmult_ed25519_noclamp",
  "crypto_scalarmult_ed25519_scalarbytes",
  "crypto_scalarmult_ristretto255",
  "crypto_scalarmult_ristretto255_base",
  "crypto_scalarmult_ristretto255_bytes",
  "crypto_scalarmult_ristretto255_scalarbytes",
  "crypto_shorthash_siphashx24",
  "crypto_shorthash_siphashx24_bytes",
  "crypto_shorthash_siphashx24_keybytes",
  "crypto_sign_ed25519_sk_to_pk",
  "crypto_sign_ed25519_sk_to_seed",
  "crypto_stream_chacha20",
  "crypto_stream_chacha20_ietf_ext_keybytes",
  "crypto_stream_chacha20_ietf_ext_noncebytes",
  "crypto_stream_chacha20_ietf_xor",
  "crypto_stream_chacha20_ietf_xor_ic",
  "crypto_stream_chacha20_keybytes",
  "crypto_stream_chacha20_keygen",
  "crypto_stream_chacha20_noncebytes",
  "crypto_stream_chacha20_xor",
  "crypto_stream_chacha20_xor_ic",
  "crypto_stream_keygen",
  "crypto_stream_xchacha20_keybytes",
  "crypto_stream_xchacha20_keygen",
  "crypto_stream_xchacha20_noncebytes",
  "crypto_stream_xchacha20_xor",
  "crypto_stream_xchacha20_xor_ic"]

end SodiumDecl.Catalog
