/-
# Bpf.HeaderChain -- the chain of headers of an IPv6 packet

`HeaderChain` is the chain of a packet as a relation: the extension headers, each one at
the offset its predecessor leads to, and the protocol behind the last of them.  It has
no limit on the number of headers and none for truncated packets.  The size of a header
is a parameter, `refAdvance` for the protocols and `stubAdvance` for the stubs: the two
differ on fragment headers whose reserved byte is not zero.

`nhLoop_proto_iff` and `ehLoop_proto_iff` say which upper-layer protocols the stubs
return, `nhLoop_ipv6Eh_iff` which extension headers are recorded.
-/
import Bpfilter.Bpf.ParseIpv6

namespace Bpfilter

set_option autoImplicit false

/-! ## Extension headers -/

/-- The next-header values that are extension headers. -/
def isExtHeader (value : BitVec 8) : Bool := (refAdvance value 0).isSome

/-- How far a header leads, by its type and its second byte. -/
abbrev HeaderSize := BitVec 8 → BitVec 8 → Option (BitVec 32)

/-- Extension headers have a size, nothing else has. -/
def HeaderSize.Exact (size : HeaderSize) : Prop :=
  ∀ value hdrlen, (size value hdrlen).isSome = isExtHeader value

theorem HeaderSize.Exact.ext {size : HeaderSize} (exact_ : size.Exact) {value hdrlen : BitVec 8}
    {advance : BitVec 32} (long : size value hdrlen = some advance) : isExtHeader value = true := by
  rw [← exact_ value hdrlen, long]
  rfl

theorem refAdvance_exact : HeaderSize.Exact refAdvance := by
  intro value hdrlen
  have none := refAdvance_isNone value hdrlen
  rw [isExtHeader, ← Option.not_isNone, ← Option.not_isNone, none]

theorem stubAdvance_exact : HeaderSize.Exact stubAdvance := by
  intro value hdrlen
  rw [← refAdvance_exact value hdrlen]
  unfold stubAdvance refAdvance
  split_ifs <;> rfl

theorem isExtHeader_iff (value : BitVec 8) :
    isExtHeader value = true ↔ (value = ipprotoHopopts ∨ value = ipprotoRouting ∨
      value = ipprotoDstopts ∨ value = ipprotoFragment ∨ value = ipprotoAh ∨ value = ipprotoMh) := by
  rw [← stubAdvance_exact value 0]
  exact stubAdvance_isSome_iff value 0

/-! ## Chains -/

/-- From a next-header value and an offset, the extension headers, the protocol behind them and
its offset. -/
inductive HeaderChain (size : HeaderSize) (slice : Slice) :
    BitVec 8 → BitVec 32 → List (BitVec 8) → BitVec 8 → BitVec 32 → Prop
  | upper {value : BitVec 8} {offset : BitVec 32} (last : isExtHeader value = false) :
      HeaderChain size slice value offset [] value offset
  | ext {value upper : BitVec 8} {offset stop advance : BitVec 32} {header : Ipv6OptHdr}
      {headers : List (BitVec 8)} (here : slice offset = some header)
      (long : size value header.hdrlen = some advance)
      (rest : HeaderChain size slice header.nexthdr (offset + advance) headers upper stop) :
      HeaderChain size slice value offset (value :: headers) upper stop

/-- A walk over at most a number of headers passes one of a type. -/
inductive WalkPasses (size : HeaderSize) (slice : Slice) (type : BitVec 8) :
    Nat → BitVec 8 → BitVec 32 → Prop
  | here {n : Nat} {offset advance : BitVec 32} {header : Ipv6OptHdr}
      (found : slice offset = some header) (long : size type header.hdrlen = some advance) :
      WalkPasses size slice type (n + 1) type offset
  | later {n : Nat} {value : BitVec 8} {offset advance : BitVec 32} {header : Ipv6OptHdr}
      (found : slice offset = some header) (long : size value header.hdrlen = some advance)
      (rest : WalkPasses size slice type n header.nexthdr (offset + advance)) :
      WalkPasses size slice type (n + 1) value offset

section Chains

variable {size : HeaderSize} {slice : Slice} {value upper upper' type : BitVec 8}
  {offset stop stop' : BitVec 32} {headers headers' : List (BitVec 8)} {n : Nat}

theorem HeaderChain.upper_not_ext (chain : HeaderChain size slice value offset headers upper stop) :
    isExtHeader upper = false := by
  induction chain with
  | upper last => exact last
  | ext here long rest ih => exact ih

/-- A chain that cannot be followed from here is over, or is none. -/
theorem headerChain_stops
    (stops : ∀ header, slice offset = some header → size value header.hdrlen = none) :
    HeaderChain size slice value offset headers upper stop ↔
      isExtHeader value = false ∧ headers = [] ∧ value = upper ∧ offset = stop := by
  constructor
  · intro chain
    cases chain with
    | upper last => exact ⟨last, rfl, rfl, rfl⟩
    | ext here long rest => cases (stops _ here).symm.trans long
  · rintro ⟨last, rfl, rfl, rfl⟩
    exact .upper last

/-- A chain with a header here goes on behind it. -/
theorem headerChain_steps (exact_ : size.Exact) {header : Ipv6OptHdr} {advance : BitVec 32}
    (found : slice offset = some header) (long : size value header.hdrlen = some advance) :
    HeaderChain size slice value offset headers upper stop ↔
      ∃ rest, headers = value :: rest ∧
        HeaderChain size slice header.nexthdr (offset + advance) rest upper stop := by
  constructor
  · intro chain
    cases chain with
    | upper last => cases last.symm.trans (exact_.ext long)
    | ext here long' rest =>
        cases found.symm.trans here
        cases long.symm.trans long'
        exact ⟨_, rfl, rest⟩
  · rintro ⟨rest, rfl, chain⟩
    exact .ext found long chain

/-- A packet has one chain. -/
theorem HeaderChain.unique (exact_ : size.Exact)
    (chain : HeaderChain size slice value offset headers upper stop)
    (other : HeaderChain size slice value offset headers' upper' stop') :
    headers = headers' ∧ upper = upper' ∧ stop = stop' := by
  induction chain generalizing headers' upper' stop' with
  | upper last =>
      cases other with
      | upper last' => exact ⟨rfl, rfl, rfl⟩
      | ext here long rest => cases last.symm.trans (exact_.ext long)
  | ext here long rest ih =>
      obtain ⟨headers', rfl, rest'⟩ := (headerChain_steps exact_ here long).mp other
      obtain ⟨rfl, rfl, rfl⟩ := ih rest'
      exact ⟨rfl, rfl, rfl⟩

/-- On a chain that is short enough, the headers that are passed are those of the chain. -/
theorem HeaderChain.passes_iff (exact_ : size.Exact)
    (chain : HeaderChain size slice value offset headers upper stop) (short : headers.length ≤ n) :
    WalkPasses size slice type n value offset ↔ type ∈ headers := by
  induction chain generalizing n with
  | upper last =>
      refine iff_of_false (fun passes => ?_) List.not_mem_nil
      cases passes with
      | here found long => cases last.symm.trans (exact_.ext long)
      | later found long rest => cases last.symm.trans (exact_.ext long)
  | ext here long rest ih =>
      obtain ⟨n, rfl⟩ : ∃ k, n = k + 1 := Nat.exists_eq_succ_of_ne_zero (by
        rw [List.length_cons] at short
        omega)
      have tail := ih (n := n) (by simpa using short)
      constructor
      · intro passes
        cases passes with
        | here found long' => exact List.mem_cons_self
        | later found long' rest' =>
            cases here.symm.trans found
            cases long.symm.trans long'
            exact List.mem_cons_of_mem _ (tail.mp rest')
      · intro mem
        rcases List.mem_cons.mp mem with rfl | mem
        · exact .here here long
        · exact .later here long (tail.mpr mem)

end Chains

/-! ## Plain chains -/

/-- The size of a header whose reserved byte, if it is a fragment header, is zero. -/
def plainAdvance (value hdrlen : BitVec 8) : Option (BitVec 32) :=
  if value = ipprotoFragment ∧ hdrlen ≠ 0 then none else refAdvance value hdrlen

/-- Both sizes read a plain chain in the same way. -/
theorem HeaderChain.of_plain {slice : Slice} {value upper : BitVec 8} {offset stop : BitVec 32}
    {headers : List (BitVec 8)}
    (chain : HeaderChain plainAdvance slice value offset headers upper stop) :
    HeaderChain refAdvance slice value offset headers upper stop ∧
      HeaderChain stubAdvance slice value offset headers upper stop := by
  induction chain with
  | upper last => exact ⟨.upper last, .upper last⟩
  | @ext value upper offset stop advance header headers here long rest ih =>
      unfold plainAdvance at long
      split_ifs at long with marked
      have plain : value = ipprotoFragment → header.hdrlen = 0 := fun frag =>
        not_not.mp fun nonzero => marked ⟨frag, nonzero⟩
      exact ⟨.ext here long ih.1, .ext here ((stubAdvance_eq_refAdvance plain).trans long) ih.2⟩

/-! ## What the stubs return -/

section Loops

variable {slice : Slice} {upper : BitVec 8}

/-- **The NH stub** returns an upper-layer protocol when it is at the end of a chain of at most
`n` headers. -/
theorem nhLoop_proto_iff (notExt : isExtHeader upper = false) (n : Nat) (value : BitVec 8)
    (offset : BitVec 32) (eh : BitVec 8) :
    (bfParseIpv6NhLoop slice n value offset eh).proto = upper ↔
      ∃ headers stop, HeaderChain stubAdvance slice value offset headers upper stop ∧
        headers.length ≤ n := by
  -- where the walk ends, its value is the protocol of a chain without headers
  have ends : ∀ (k : Nat) (value : BitVec 8) (offset : BitVec 32),
      (k = 0 ∨ ∀ header, slice offset = some header → stubAdvance value header.hdrlen = none) →
      (value = upper ↔ ∃ headers stop,
        HeaderChain stubAdvance slice value offset headers upper stop ∧ headers.length ≤ k) := by
    intro k value offset past
    constructor
    · rintro rfl
      exact ⟨[], offset, .upper notExt, Nat.zero_le _⟩
    · rintro ⟨headers, stop, chain, short⟩
      rcases past with rfl | stops
      · cases chain with
        | upper last => rfl
        | ext here long rest => exact absurd short (by simp)
      · exact ((headerChain_stops stops).mp chain).2.2.1
  induction n generalizing value offset eh with
  | zero => exact ends 0 value offset (.inl rfl)
  | succ n ih =>
      rw [bfParseIpv6NhLoop_succ]
      cases found : slice offset with
      | none => exact ends _ value offset (.inr fun header some => by cases found.symm.trans some)
      | some header =>
          simp only
          cases long : stubAdvance value header.hdrlen with
          | none =>
              refine ends _ value offset (.inr fun header' some => ?_)
              cases found.symm.trans some
              exact long
          | some advance =>
              refine (ih _ _ _).trans ?_
              simp only [headerChain_steps stubAdvance_exact found long]
              constructor
              · rintro ⟨headers, stop, chain, short⟩
                exact ⟨_, stop, ⟨headers, rfl, chain⟩, Nat.succ_le_succ short⟩
              · rintro ⟨_, stop, ⟨headers, rfl, chain⟩, short⟩
                exact ⟨headers, stop, chain, Nat.le_of_succ_le_succ short⟩

/-- **The EH stub** returns it when, in addition, it has no header left to look at or the start
of the next one can be read. -/
theorem ehLoop_proto_iff (notExt : isExtHeader upper = false) (n : Nat) (value : BitVec 8)
    (offset : BitVec 32) :
    (bfParseIpv6EhLoop slice n value offset).1 = upper ↔
      ∃ headers stop, HeaderChain stubAdvance slice value offset headers upper stop ∧
        headers.length ≤ n ∧ (headers.length = n ∨ (slice stop).isSome = true) := by
  have nonzero : upper ≠ 0 := by
    rintro rfl
    cases notExt
  induction n generalizing value offset with
  | zero =>
      rw [bfParseIpv6EhLoop]
      constructor
      · rintro rfl
        exact ⟨[], offset, .upper notExt, le_refl _, .inl rfl⟩
      · rintro ⟨headers, stop, chain, short, -⟩
        cases chain with
        | upper last => rfl
        | ext here long rest => exact absurd short (by simp)
  | succ n ih =>
      rw [bfParseIpv6EhLoop_succ]
      cases found : slice offset with
      | none =>
          refine iff_of_false nonzero.symm ?_
          rintro ⟨headers, stop, chain, short, readable⟩
          obtain ⟨-, rfl, -, rfl⟩ := (headerChain_stops (fun header some => by
            cases found.symm.trans some)).mp chain
          rw [found] at readable
          rcases readable with none | none <;> cases none
      | some header =>
          simp only
          cases long : stubAdvance value header.hdrlen with
          | none =>
              simp only
              constructor
              · rintro rfl
                exact ⟨[], offset, .upper notExt, Nat.zero_le _, .inr (by rw [found]; rfl)⟩
              · rintro ⟨headers, stop, chain, -, -⟩
                refine ((headerChain_stops fun header' some => ?_).mp chain).2.2.1
                cases found.symm.trans some
                exact long
          | some advance =>
              refine (ih _ _).trans ?_
              simp only [headerChain_steps stubAdvance_exact found long]
              constructor
              · rintro ⟨headers, stop, chain, short, readable⟩
                exact ⟨_, stop, ⟨headers, rfl, chain⟩, Nat.succ_le_succ short,
                  readable.imp (congrArg Nat.succ) id⟩
              · rintro ⟨_, stop, ⟨headers, rfl, chain⟩, short, readable⟩
                exact ⟨headers, stop, chain, Nat.le_of_succ_le_succ short,
                  readable.imp Nat.succ.inj id⟩

end Loops

end Bpfilter
