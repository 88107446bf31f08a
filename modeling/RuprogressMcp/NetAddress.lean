import RuprogressMcp.RustText

/-!
# IP addresses

The two kinds of IP address with their textual form: how it is read, how it is
printed, and which addresses are loopback addresses.
-/

inductive IpAddr where
  | v4 (a b c d : UInt8)
  | v6 (segments : Fin 8 → UInt16)
deriving DecidableEq

structure SocketAddr where
  ip : IpAddr
  port : ℕ
deriving DecidableEq

namespace IpAddr

def isLoopback : IpAddr → Bool
  | .v4 a _ _ _ => a == 127
  | .v6 segments => segments = ![0, 0, 0, 0, 0, 0, 0, 1]

/-! ## Printing -/

def displayV4 (a b c d : UInt8) : String :=
  toString a.toNat ++ "." ++ toString b.toNat ++ "." ++ toString c.toNat ++ "." ++
    toString d.toNat

/-- Start and length of the first longest run of zeros, reading from index
`i` with a run of `length` zeros behind it. -/
def longestZeros : ℕ → ℕ → List UInt16 → ℕ × ℕ
  | i, length, [] => (i - length, length)
  | i, length, s :: rest =>
      if s = 0 then longestZeros (i + 1) (length + 1) rest
      else
        let later := longestZeros (i + 1) 0 rest
        if later.2 ≤ length then (i - length, length) else later

def displayGroups (groups : List UInt16) : String :=
  String.intercalate ":" (groups.map fun group =>
    String.ofList (Nat.toDigits 16 group.toNat))

def displayV6 (segments : Fin 8 → UInt16) : String :=
  let groups := List.ofFn segments
  if groups.take 6 = [0, 0, 0, 0, 0, 0xffff] then
    let high := (segments 6).toNat
    let low := (segments 7).toNat
    "::ffff:" ++ toString (high / 256) ++ "." ++ toString (high % 256) ++ "." ++
      toString (low / 256) ++ "." ++ toString (low % 256)
  else
    let (start, length) := longestZeros 0 0 groups
    if 1 < length then
      displayGroups (groups.take start) ++ "::" ++
        displayGroups (groups.drop (start + length))
    else displayGroups groups

def display : IpAddr → String
  | .v4 a b c d => displayV4 a b c d
  | .v6 segments => displayV6 segments

/-! ## Reading -/

/-- At most three digits, without a leading zero. -/
def readOctet (text : List Char) : Option UInt8 :=
  if text.isEmpty || !text.all Char.isDigit || 3 < text.length ||
      (text.head? == some '0' && 1 < text.length) then none
  else if Nat.ofDigitChars 10 text 0 < 256 then
    some (UInt8.ofNat (Nat.ofDigitChars 10 text 0))
  else none

def readV4 (text : List Char) : Option (UInt8 × UInt8 × UInt8 × UInt8) :=
  match text.splitOn '.' with
  | [a, b, c, d] => do
      pure (← readOctet a, ← readOctet b, ← readOctet c, ← readOctet d)
  | _ => none

def readGroup (text : List Char) : Option UInt16 :=
  if text.isEmpty || 4 < text.length then none
  else
    (text.mapM RustText.hexValue).map fun digits =>
      UInt16.ofNat (digits.foldl (fun value digit => 16 * value + digit) 0)

/-- Groups separated by colons; the last may be an IPv4 address where that is
allowed. -/
def readGroups (tail : Bool) : List (List Char) → Option (List UInt16)
  | [] => some []
  | [last] =>
      match readGroup last with
      | some group => some [group]
      | none =>
          if tail then
            (readV4 last).map fun (a, b, c, d) =>
              [UInt16.ofNat (256 * a.toNat + b.toNat),
                UInt16.ofNat (256 * c.toNat + d.toNat)]
          else none
  | group :: rest => do
      let group ← readGroup group
      let rest ← readGroups tail rest
      pure (group :: rest)

/-- The texts before and after the first double colon. -/
def splitDoubleColon : List Char → Option (List Char × List Char)
  | ':' :: ':' :: rest => some ([], rest)
  | c :: rest => (splitDoubleColon rest).map fun (before, after) => (c :: before, after)
  | [] => none

def readSide (tail : Bool) (text : List Char) : Option (List UInt16) :=
  if text.isEmpty then some [] else readGroups tail (text.splitOn ':')

def readV6 (text : List Char) : Option (List UInt16) :=
  match splitDoubleColon text with
  | none => (readSide true text).filter fun groups => groups.length == 8
  | some (before, after) => do
      let head ← readSide false before
      let tail ← readSide true after
      if head.length + tail.length < 8 then
        pure (head ++ List.replicate (8 - head.length - tail.length) 0 ++ tail)
      else none

/-- The textual form of an address. -/
def parse (text : String) : Option IpAddr :=
  match readV4 text.toList with
  | some (a, b, c, d) => some (.v4 a b c d)
  | none => (readV6 text.toList).map fun groups => .v6 fun i => groups.getD i 0

/-! ## The printed form -/

theorem display_loopbackV6 : display (.v6 ![0, 0, 0, 0, 0, 0, 0, 1]) = "::1" := by
  decide

theorem toList_displayV4 (a b c d : UInt8) :
    (displayV4 a b c d).toList =
      (toString a.toNat).toList ++ '.' :: ((toString b.toNat).toList ++
        '.' :: ((toString c.toNat).toList ++ '.' :: (toString d.toNat).toList)) := by
  have hdot : ".".toList = ['.'] := rfl
  simp only [displayV4, String.toList_append, hdot, List.append_assoc,
    List.cons_append, List.nil_append]

theorem mem_displayV4 {a b c d : UInt8} {char : Char}
    (hchar : char ∈ (displayV4 a b c d).toList) : char.isDigit = true ∨ char = '.' := by
  rw [toList_displayV4] at hchar
  simp only [List.mem_append, List.mem_cons] at hchar
  rcases hchar with h | h | h | h | h | h | h
  · exact Or.inl (RustText.isDigit_of_mem_toString h)
  · exact Or.inr h
  · exact Or.inl (RustText.isDigit_of_mem_toString h)
  · exact Or.inr h
  · exact Or.inl (RustText.isDigit_of_mem_toString h)
  · exact Or.inr h
  · exact Or.inl (RustText.isDigit_of_mem_toString h)

theorem toString_octet_injective {m n : UInt8}
    (heq : (toString m.toNat).toList = (toString n.toNat).toList) : m = n :=
  UInt8.toNat_inj.mp (RustText.toString_injective heq)

theorem displayV4_injective {a b c d a' b' c' d' : UInt8}
    (heq : displayV4 a b c d = displayV4 a' b' c' d') :
    a = a' ∧ b = b' ∧ c = c' ∧ d = d' := by
  have hdot : ∀ n : ℕ, '.' ∉ (toString n).toList := by
    intro n hmem
    have hdigit := RustText.isDigit_of_mem_toString hmem
    revert hdigit
    decide
  have hlist := congrArg String.toList heq
  rw [toList_displayV4, toList_displayV4] at hlist
  obtain ⟨ha, hlist⟩ := RustText.append_separator_inj (hdot _) (hdot _) hlist
  obtain ⟨hb, hlist⟩ := RustText.append_separator_inj (hdot _) (hdot _) hlist
  obtain ⟨hc, hd⟩ := RustText.append_separator_inj (hdot _) (hdot _) hlist
  exact ⟨toString_octet_injective ha, toString_octet_injective hb,
    toString_octet_injective hc, toString_octet_injective hd⟩

end IpAddr
