/- source: piltover/utils/gen_primes.py
   digest: The prime of the key exchanges and of the passwords, and its generator. -/

import Mathlib.Algebra.Order.Ring.Nat

set_option autoImplicit false

namespace Piltover

def currentDhPrime : Nat :=
  [0xC71CAEB9C6B1C9048E6C522F70F13F73980D40238E3E21C14934D037563D930F,
    0x48198A0AA7C14058229493D22530F4DBFA336F6E0AC925139543AED44CCE7C37,
    0x20FD51F69458705AC68CD4FE6B6B13ABDC9746512969328454F18FAF8C595F64,
    0x2477FE96BB2A941D5BCD1D4AC8CC49880708FA9B378E3C4F3A9060BEE67CF9A4,
    0xA4A695811051907E162753B56B0F6B410DBA74D8A84B2A14B3144E0EF1284754,
    0xFD17ED950D5965B4B9DD46582DB1178D169C6BC465B0D6FF9CA3928FEF5B9AE4,
    0xE418FC15E83EBEA0F87FA9FF5EED70050DED2849F47BF959D956850CE929851F,
    0x0D8115F635B105EE2E4E15D04B2454BF6F4FADF034B10403119CD8E3B92FCC5B].foldl
      (fun n part => n * 2 ^ 256 + part) 0

def genSafePrime : Nat × Nat :=
  let g := 2
  (currentDhPrime, currentDhPrime % (4 * g))

theorem currentDhPrime_lt : currentDhPrime < 256 ^ 256 := by decide +kernel

theorem one_lt_currentDhPrime : 1 < currentDhPrime := by decide +kernel

end Piltover
