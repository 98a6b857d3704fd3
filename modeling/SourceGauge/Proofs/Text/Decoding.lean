import Mathlib.Data.List.Basic
import SourceGauge.Outcome
import SourceGauge.Text.Utf8

/-!
# What octets are decoded to

Octets are decoded exactly if they are the encoding of some characters, and then to these. What may
follow is said for every state of the decoder: between characters it is the encoding of what is
decoded, and within one it is first what completes the character.
-/

namespace SourceGauge.Utf8

/-- The octets of some characters. -/
def octetsOf (cs : List Char) : List UInt8 := cs.flatMap String.utf8EncodeChar

/-- Octets complete what was announced, and give the number of the character. -/
inductive Completes : Lead → List UInt8 → Nat → Prop
  | done (low high : UInt8) (payload : Nat) : Completes ⟨0, low, high, payload⟩ [] payload
  | next {followers payload number : Nat} {low high octet : UInt8} {rest : List UInt8}
    (hlow : low ≤ octet) (hhigh : octet ≤ high)
    (h : Completes ⟨followers, 0x80, 0xBF, payload * 64 + (octet.toNat - 0x80)⟩ rest number) :
    Completes ⟨followers + 1, low, high, payload⟩ (octet :: rest) number

/-- Octets complete a character that was started and go on with others. -/
def Continues (pending : Lead) (octets : List UInt8) (cs : List Char) : Prop :=
  ∃ tail number others, Completes pending tail number ∧ octets = tail ++ octetsOf others ∧
    cs = Char.ofNat number :: others

/-- The octets of some characters are those of the string that they make. -/
theorem octetsOf_eq_toList (cs : List Char) :
    octetsOf cs = (String.ofList cs).toByteArray.data.toList := by
  rw [String.toByteArray_ofList, List.utf8Encode, List.toList_data_toByteArray]
  rfl

/-! ## First octets -/

theorem lead?_of_one {octet : UInt8} (h : octet.toNat < 0x80) :
    lead? octet = some ⟨0, 0x80, 0xBF, octet.toNat⟩ := by
  have h80 : octet < 0x80 := UInt8.lt_iff_toNat_lt.2 h
  rw [lead?, if_pos h80]

theorem lead?_of_two {octet : UInt8} (hlow : 0xC2 ≤ octet.toNat) (hhigh : octet.toNat < 0xE0) :
    lead? octet = some ⟨1, 0x80, 0xBF, octet.toNat - 0xC0⟩ := by
  simp only [lead?, UInt8.lt_iff_toNat_lt, UInt8.reduceToNat]
  rw [if_neg (by omega), if_neg (by omega), if_pos hhigh]

theorem lead?_of_three {octet : UInt8} (hlow : 0xE0 ≤ octet.toNat) (hhigh : octet.toNat < 0xF0) :
    lead? octet = some ⟨2, if octet.toNat = 0xE0 then 0xA0 else 0x80,
      if octet.toNat = 0xED then 0x9F else 0xBF, octet.toNat - 0xE0⟩ := by
  simp only [lead?, UInt8.lt_iff_toNat_lt, UInt8.reduceToNat, beq_iff_eq, ← UInt8.toNat_inj]
  rw [if_neg (by omega), if_neg (by omega), if_neg (by omega), if_pos hhigh]
  split
  · rename_i he0
    rw [he0]
    rfl
  · split
    · rename_i hed
      rw [hed]
    · rfl

theorem lead?_of_four {octet : UInt8} (hlow : 0xF0 ≤ octet.toNat) (hhigh : octet.toNat < 0xF5) :
    lead? octet = some ⟨3, if octet.toNat = 0xF0 then 0x90 else 0x80,
      if octet.toNat = 0xF4 then 0x8F else 0xBF, octet.toNat - 0xF0⟩ := by
  simp only [lead?, UInt8.lt_iff_toNat_lt, UInt8.reduceToNat, beq_iff_eq, ← UInt8.toNat_inj]
  rw [if_neg (by omega), if_neg (by omega), if_neg (by omega), if_neg (by omega),
    if_neg (by omega), if_neg (by omega)]
  split
  · rename_i hf0
    rw [hf0]
    rfl
  · split
    · rename_i hf4
      rw [hf4]
    · rw [if_pos (by omega)]

/-- A first octet announces none, one, two or three others. -/
theorem range_of_lead? {octet : UInt8} {lead : Lead} (h : lead? octet = some lead) :
    octet.toNat < 0x80 ∨ (0xC2 ≤ octet.toNat ∧ octet.toNat < 0xE0) ∨
      (0xE0 ≤ octet.toNat ∧ octet.toNat < 0xF0) ∨ (0xF0 ≤ octet.toNat ∧ octet.toNat < 0xF5) := by
  simp only [lead?, UInt8.lt_iff_toNat_lt, UInt8.reduceToNat, beq_iff_eq, ← UInt8.toNat_inj] at h
  split at h
  · omega
  · split at h
    · contradiction
    · by_contra hrange
      rw [if_neg (by omega), if_neg (by omega), if_neg (by omega), if_neg (by omega),
        if_neg (by omega), if_neg (by omega), if_neg (by omega)] at h
      contradiction

/-! ## Single characters -/

/-- An octet of a number below 256 is known by the number. -/
theorem ofNat_eq_of_toNat {n : Nat} {octet : UInt8} (h : n = octet.toNat) :
    UInt8.ofNat n = octet := by
  rw [h, UInt8.ofNat_toNat]

theorem utf8EncodeChar_of_one {c : Char} {a : UInt8} (ha : a.toNat < 0x80)
    (hc : c.toNat = a.toNat) : String.utf8EncodeChar c = [a] := by
  have hval : c.val.toNat = a.toNat := hc
  simp only [String.utf8EncodeChar, hval]
  rw [if_pos (by omega), ofNat_eq_of_toNat rfl]

theorem utf8EncodeChar_of_two {c : Char} {a b : UInt8} (ha : 0xC2 ≤ a.toNat ∧ a.toNat < 0xE0)
    (hb : 0x80 ≤ b.toNat ∧ b.toNat ≤ 0xBF)
    (hc : c.toNat = (a.toNat - 0xC0) * 64 + (b.toNat - 0x80)) :
    String.utf8EncodeChar c = [a, b] := by
  have hval : c.val.toNat = (a.toNat - 0xC0) * 64 + (b.toNat - 0x80) := hc
  have ha' : c.val.toNat / 64 % 32 + 192 = a.toNat := by omega
  have hb' : c.val.toNat % 64 + 128 = b.toNat := by omega
  simp only [String.utf8EncodeChar, ofNat_eq_of_toNat ha', ofNat_eq_of_toNat hb']
  rw [if_neg (by omega), if_pos (by omega)]

theorem utf8EncodeChar_of_three {c : Char} {a b d : UInt8}
    (ha : 0xE0 ≤ a.toNat ∧ a.toNat < 0xF0)
    (hb : 0x80 ≤ b.toNat ∧ b.toNat ≤ 0xBF) (hshort : a.toNat = 0xE0 → 0xA0 ≤ b.toNat)
    (hd : 0x80 ≤ d.toNat ∧ d.toNat ≤ 0xBF)
    (hc : c.toNat = ((a.toNat - 0xE0) * 64 + (b.toNat - 0x80)) * 64 + (d.toNat - 0x80)) :
    String.utf8EncodeChar c = [a, b, d] := by
  have hval : c.val.toNat =
    ((a.toNat - 0xE0) * 64 + (b.toNat - 0x80)) * 64 + (d.toNat - 0x80) := hc
  have ha' : c.val.toNat / 4096 % 16 + 224 = a.toNat := by omega
  have hb' : c.val.toNat / 64 % 64 + 128 = b.toNat := by omega
  have hd' : c.val.toNat % 64 + 128 = d.toNat := by omega
  simp only [String.utf8EncodeChar, ofNat_eq_of_toNat ha', ofNat_eq_of_toNat hb',
    ofNat_eq_of_toNat hd']
  rw [if_neg (by omega), if_neg (by omega), if_pos (by omega)]

theorem utf8EncodeChar_of_four {c : Char} {a b d e : UInt8}
    (ha : 0xF0 ≤ a.toNat ∧ a.toNat < 0xF5)
    (hb : 0x80 ≤ b.toNat ∧ b.toNat ≤ 0xBF) (hshort : a.toNat = 0xF0 → 0x90 ≤ b.toNat)
    (hd : 0x80 ≤ d.toNat ∧ d.toNat ≤ 0xBF) (he : 0x80 ≤ e.toNat ∧ e.toNat ≤ 0xBF)
    (hc : c.toNat = (((a.toNat - 0xF0) * 64 + (b.toNat - 0x80)) * 64 + (d.toNat - 0x80)) * 64 +
      (e.toNat - 0x80)) :
    String.utf8EncodeChar c = [a, b, d, e] := by
  have hval : c.val.toNat = (((a.toNat - 0xF0) * 64 + (b.toNat - 0x80)) * 64 +
    (d.toNat - 0x80)) * 64 + (e.toNat - 0x80) := hc
  have ha' : c.val.toNat / 262144 % 8 + 240 = a.toNat := by omega
  have hb' : c.val.toNat / 4096 % 64 + 128 = b.toNat := by omega
  have hd' : c.val.toNat / 64 % 64 + 128 = d.toNat := by omega
  have he' : c.val.toNat % 64 + 128 = e.toNat := by omega
  simp only [String.utf8EncodeChar, ofNat_eq_of_toNat ha', ofNat_eq_of_toNat hb',
    ofNat_eq_of_toNat hd', ofNat_eq_of_toNat he']
  rw [if_neg (by omega), if_neg (by omega), if_neg (by omega)]

/-- The bounds of an octet that follows, as numbers. -/
theorem within_iff {octet : UInt8} :
    0x80 ≤ octet ∧ octet ≤ 0xBF ↔ 0x80 ≤ octet.toNat ∧ octet.toNat ≤ 0xBF := by
  rw [UInt8.le_iff_toNat_le, UInt8.le_iff_toNat_le]
  rfl

/-- The lower bound of the first octet that follows, which one first octet raises. -/
theorem raised_le_iff {number first : Nat} {low octet : UInt8} (h : 0x80 ≤ low.toNat) :
    (if number = first then low else 0x80) ≤ octet ↔
      0x80 ≤ octet.toNat ∧ (number = first → low.toNat ≤ octet.toNat) := by
  rw [UInt8.le_iff_toNat_le]
  split
  · rename_i hfirst
    exact ⟨fun hle => ⟨Nat.le_trans h hle, fun _ => hle⟩, fun hle => hle.2 hfirst⟩
  · rename_i hother
    exact ⟨fun hle => ⟨hle, fun hfirst => absurd hfirst hother⟩, And.left⟩

/-- The upper bound of the first octet that follows, which one first octet lowers. -/
theorem le_lowered_iff {number first : Nat} {high octet : UInt8} (h : high.toNat ≤ 0xBF) :
    octet ≤ (if number = first then high else 0xBF) ↔
      octet.toNat ≤ 0xBF ∧ (number = first → octet.toNat ≤ high.toNat) := by
  rw [UInt8.le_iff_toNat_le]
  split
  · rename_i hfirst
    exact ⟨fun hle => ⟨Nat.le_trans hle h, fun _ => hle⟩, fun hle => hle.2 hfirst⟩
  · rename_i hother
    exact ⟨fun hle => ⟨hle, fun hfirst => absurd hfirst hother⟩, And.left⟩

/-- What is completed after a first octet is the number of a character, and the octets are its
encoding. -/
theorem utf8EncodeChar_of_completes {octet : UInt8} {lead : Lead} {tail : List UInt8} {number : Nat}
    (hlead : lead? octet = some lead) (h : Completes lead tail number) :
    number.isValidChar ∧
      ∀ c : Char, c.toNat = number → String.utf8EncodeChar c = octet :: tail := by
  have hvalid : ∀ n, (n < 0xD800 ∨ 0xDFFF < n ∧ n < 0x110000) → n.isValidChar := fun _ h => h
  rcases range_of_lead? hlead with hone | htwo | hthree | hfour
  · obtain rfl := Option.some.inj ((lead?_of_one hone).symm.trans hlead)
    cases h with
    | done => exact ⟨hvalid _ (by omega), fun c hc => utf8EncodeChar_of_one hone hc⟩
  · obtain rfl := Option.some.inj ((lead?_of_two htwo.1 htwo.2).symm.trans hlead)
    cases h with
    | next hlow1 hhigh1 h =>
      cases h with
      | done =>
        have h1 := within_iff.1 ⟨hlow1, hhigh1⟩
        exact ⟨hvalid _ (by omega), fun c hc => utf8EncodeChar_of_two htwo h1 hc⟩
  · obtain rfl := Option.some.inj ((lead?_of_three hthree.1 hthree.2).symm.trans hlead)
    cases h with
    | next hlow1 hhigh1 h =>
      cases h with
      | next hlow2 hhigh2 h =>
        cases h with
        | done =>
          obtain ⟨hlow1, hshort⟩ := (raised_le_iff (by decide)).1 hlow1
          obtain ⟨hhigh1, hsurrogate⟩ := (le_lowered_iff (by decide)).1 hhigh1
          have h2 := within_iff.1 ⟨hlow2, hhigh2⟩
          simp only [UInt8.reduceToNat] at hshort hsurrogate
          exact ⟨hvalid _ (by omega), fun c hc =>
            utf8EncodeChar_of_three hthree ⟨hlow1, hhigh1⟩ hshort h2 hc⟩
  · obtain rfl := Option.some.inj ((lead?_of_four hfour.1 hfour.2).symm.trans hlead)
    cases h with
    | next hlow1 hhigh1 h =>
      cases h with
      | next hlow2 hhigh2 h =>
        cases h with
        | next hlow3 hhigh3 h =>
          cases h with
          | done =>
            obtain ⟨hlow1, hshort⟩ := (raised_le_iff (by decide)).1 hlow1
            obtain ⟨hhigh1, hbeyond⟩ := (le_lowered_iff (by decide)).1 hhigh1
            have h2 := within_iff.1 ⟨hlow2, hhigh2⟩
            have h3 := within_iff.1 ⟨hlow3, hhigh3⟩
            simp only [UInt8.reduceToNat] at hshort hbeyond
            exact ⟨hvalid _ (by omega), fun c hc =>
              utf8EncodeChar_of_four hfour ⟨hlow1, hhigh1⟩ hshort h2 h3 hc⟩

/-- The octets of a character start with one that announces the others, and these complete it. -/
theorem exists_completes (c : Char) : ∃ octet tail lead,
    String.utf8EncodeChar c = octet :: tail ∧ lead? octet = some lead ∧
      Completes lead tail c.toNat := by
  have hvalid : c.toNat < 0xD800 ∨ 0xDFFF < c.toNat ∧ c.toNat < 0x110000 := c.valid
  have hnat : ∀ n : Nat, n < 256 → (UInt8.ofNat n).toNat = n :=
    fun n h => UInt8.toNat_ofNat_of_lt h
  have hwithin : ∀ n : Nat, n < 64 →
      0x80 ≤ UInt8.ofNat (n + 128) ∧ UInt8.ofNat (n + 128) ≤ 0xBF := by
    intro n hn
    rw [within_iff, hnat _ (by omega)]
    omega
  have hdone : ∀ {low high : UInt8} {payload : Nat}, payload = c.toNat →
      Completes ⟨0, low, high, payload⟩ [] c.toNat := by
    intro low high payload h
    exact h ▸ .done low high payload
  have hcode : c.val.toNat = c.toNat := rfl
  simp only [String.utf8EncodeChar, hcode]
  split
  · have ha := hnat c.toNat (by omega)
    exact ⟨_, _, _, rfl, lead?_of_one (by omega), hdone ha⟩
  split
  · have ha := hnat (c.toNat / 64 % 32 + 192) (by omega)
    have hb := hnat (c.toNat % 64 + 128) (by omega)
    obtain ⟨hlow, hhigh⟩ := hwithin (c.toNat % 64) (by omega)
    exact ⟨_, _, _, rfl, lead?_of_two (by omega) (by omega),
      .next hlow hhigh (hdone (by omega))⟩
  split
  · have ha := hnat (c.toNat / 4096 % 16 + 224) (by omega)
    have hb := hnat (c.toNat / 64 % 64 + 128) (by omega)
    have hd := hnat (c.toNat % 64 + 128) (by omega)
    obtain ⟨hlow, hhigh⟩ := hwithin (c.toNat % 64) (by omega)
    refine ⟨_, _, _, rfl, lead?_of_three (by omega) (by omega),
      .next ((raised_le_iff (by decide)).2 ⟨by omega, ?short⟩)
        ((le_lowered_iff (by decide)).2 ⟨by omega, ?surrogate⟩)
        (.next hlow hhigh (hdone (by omega)))⟩
    case short =>
      show _ → 0xA0 ≤ _
      omega
    case surrogate =>
      show _ → _ ≤ 0x9F
      omega
  · have ha := hnat (c.toNat / 262144 % 8 + 240) (by omega)
    have hb := hnat (c.toNat / 4096 % 64 + 128) (by omega)
    have hd := hnat (c.toNat / 64 % 64 + 128) (by omega)
    have he := hnat (c.toNat % 64 + 128) (by omega)
    obtain ⟨hlow2, hhigh2⟩ := hwithin (c.toNat / 64 % 64) (by omega)
    obtain ⟨hlow3, hhigh3⟩ := hwithin (c.toNat % 64) (by omega)
    refine ⟨_, _, _, rfl, lead?_of_four (by omega) (by omega),
      .next ((raised_le_iff (by decide)).2 ⟨by omega, ?short⟩)
        ((le_lowered_iff (by decide)).2 ⟨by omega, ?beyond⟩)
        (.next hlow2 hhigh2 (.next hlow3 hhigh3 (hdone (by omega))))⟩
    case short =>
      show _ → 0x90 ≤ _
      omega
    case beyond =>
      show _ → _ ≤ 0x8F
      omega

/-- The first octet of some characters announces those that complete the first character. -/
theorem eq_octetsOf_cons_iff {octet : UInt8} {rest : List UInt8} {cs : List Char} :
    octet :: rest = octetsOf cs ↔ ∃ lead, lead? octet = some lead ∧ Continues lead rest cs := by
  constructor
  · intro h
    cases cs with
    | nil => contradiction
    | cons c others =>
      obtain ⟨first, tail, lead, hencoded, hlead, hcompletes⟩ := exists_completes c
      rw [octetsOf, List.flatMap_cons, hencoded, List.cons_append, List.cons.injEq] at h
      obtain ⟨rfl, hrest⟩ := h
      exact ⟨lead, hlead, tail, c.toNat, others, hcompletes, hrest, by rw [Char.ofNat_toNat]⟩
  · intro h
    obtain ⟨lead, hlead, tail, number, others, hcompletes, rfl, rfl⟩ := h
    obtain ⟨hvalid, hencoded⟩ := utf8EncodeChar_of_completes hlead hcompletes
    have hnumber : (Char.ofNat number).toNat = number := by
      rw [Char.ofNat, dif_pos hvalid]
      rfl
    rw [octetsOf, octetsOf, List.flatMap_cons, hencoded _ hnumber, List.cons_append]

/-! ## Runs of the decoder -/

/-- A character of which nothing is due is complete. -/
theorem continues_of_none {pending : Lead} {octets : List UInt8} {cs : List Char}
    (h : pending.followers = 0) : Continues pending octets cs ↔
      ∃ others, octets = octetsOf others ∧ cs = Char.ofNat pending.payload :: others := by
  obtain ⟨_, low, high, payload⟩ := pending
  obtain rfl : _ = 0 := h
  constructor
  · intro h
    obtain ⟨tail, number, others, hcompletes, hrest, hcs⟩ := h
    cases hcompletes with
    | done => exact ⟨others, hrest, hcs⟩
  · intro h
    obtain ⟨others, hrest, hcs⟩ := h
    exact ⟨[], payload, others, .done low high payload, hrest, hcs⟩

/-- A character of which an octet is due goes on with one that may follow. -/
theorem continues_cons_iff {followers payload : Nat} {low high octet : UInt8} {rest : List UInt8}
    {cs : List Char} : Continues ⟨followers + 1, low, high, payload⟩ (octet :: rest) cs ↔
      (low ≤ octet ∧ octet ≤ high) ∧
        Continues ⟨followers, 0x80, 0xBF, payload * 64 + (octet.toNat - 0x80)⟩ rest cs := by
  constructor
  · intro h
    obtain ⟨tail, number, others, hcompletes, hrest, hcs⟩ := h
    cases hcompletes with
    | next hlow hhigh h =>
      rw [List.cons_append, List.cons.injEq] at hrest
      obtain ⟨rfl, hrest⟩ := hrest
      exact ⟨⟨hlow, hhigh⟩, _, number, others, h, hrest, hcs⟩
  · intro h
    obtain ⟨⟨hlow, hhigh⟩, tail, number, others, hcompletes, hrest, hcs⟩ := h
    exact ⟨octet :: tail, number, others, .next hlow hhigh hcompletes, by rw [hrest]; rfl, hcs⟩

/-- A character of which an octet is due does not end. -/
theorem not_continues_nil {pending : Lead} {cs : List Char} (h : pending.followers ≠ 0) :
    ¬Continues pending [] cs := by
  intro hcontinues
  obtain ⟨tail, number, others, hcompletes, hrest, -⟩ := hcontinues
  cases hcompletes with
  | done => contradiction
  | next => contradiction

/-- What octets are decoded to from a state. -/
def Reads (pending : Lead) (octets : List UInt8) (cs : List Char) : Prop :=
  if pending.followers = 0 then octets = octetsOf cs else Continues pending octets cs

/-- No octets are those of no characters. -/
theorem nil_eq_octetsOf_iff {cs : List Char} : [] = octetsOf cs ↔ cs = [] := by
  cases cs with
  | nil => exact ⟨fun _ => rfl, fun _ => rfl⟩
  | cons c others =>
    obtain ⟨first, tail, _, hencoded, _⟩ := exists_completes c
    rw [octetsOf, List.flatMap_cons, hencoded, List.cons_append]
    exact ⟨nofun, nofun⟩

/-- Going on after an octet of a character, which may have been the last one that was due. -/
theorem resume_eq_ok_iff {octets seen : List UInt8} {cs : List Char} {position later : Nat}
    (next : Lead) (ih : ∀ position seen pending cs,
      decodeAt position seen pending octets = .ok cs ↔ Reads pending octets cs) :
    (if next.followers == 0 then
        (decodeAt later [] next octets).map (Char.ofNat next.payload :: ·)
      else decodeAt position seen next octets) = .ok cs ↔ Continues next octets cs := by
  by_cases hnone : next.followers = 0
  · have hreads : ∀ others, Reads next octets others ↔ octets = octetsOf others := by
      intro others
      rw [Reads, if_pos hnone]
    rw [if_pos (beq_iff_eq.2 hnone), map_eq_ok_iff, continues_of_none hnone]
    constructor
    · intro h
      obtain ⟨others, hothers, hcs⟩ := h
      exact ⟨others, (hreads others).1 ((ih ..).1 hothers), hcs.symm⟩
    · intro h
      obtain ⟨others, hothers, hcs⟩ := h
      exact ⟨others, (ih ..).2 ((hreads others).2 hothers), hcs.symm⟩
  · rw [if_neg (beq_iff_eq.not.2 hnone), ih, Reads, if_neg hnone]

/-- Octets are decoded from a state to what they are read as. -/
theorem decodeAt_eq_ok_iff (octets : List UInt8) (position : Nat) (seen : List UInt8)
    (pending : Lead) (cs : List Char) :
    decodeAt position seen pending octets = .ok cs ↔ Reads pending octets cs := by
  -- For every state, since an octet in the midst of a character leaves less of it due.
  induction octets generalizing position seen pending cs with
  | nil =>
    obtain ⟨followers, low, high, payload⟩ := pending
    cases followers with
    | zero =>
      show Except.ok [] = Except.ok cs ↔ [] = octetsOf cs
      rw [nil_eq_octetsOf_iff, Except.ok.injEq, eq_comm]
    | succ followers =>
      have hno : ¬Continues ⟨followers + 1, low, high, payload⟩ [] cs :=
        not_continues_nil (Nat.succ_ne_zero followers)
      exact ⟨nofun, fun h => absurd h hno⟩
  | cons octet rest ih =>
    obtain ⟨followers, low, high, payload⟩ := pending
    cases followers with
    | zero =>
      show _ ↔ octet :: rest = octetsOf cs
      rw [eq_octetsOf_cons_iff, decodeAt]
      cases lead? octet with
      | none => exact ⟨nofun, fun ⟨_, hlead, _⟩ => nomatch hlead⟩
      | some lead =>
        constructor
        · intro h
          exact ⟨lead, rfl, (resume_eq_ok_iff lead ih).1 h⟩
        · intro h
          obtain ⟨_, hlead, h⟩ := h
          obtain rfl := Option.some.inj hlead
          exact (resume_eq_ok_iff lead ih).2 h
    | succ followers =>
      show _ ↔ Continues ⟨followers + 1, low, high, payload⟩ (octet :: rest) cs
      rw [continues_cons_iff, decodeAt, if_neg (by simp)]
      dsimp only
      by_cases hwithin : low ≤ octet ∧ octet ≤ high
      · rw [if_pos (by simpa using hwithin), and_iff_right hwithin]
        exact resume_eq_ok_iff ⟨followers, 0x80, 0xBF, payload * 64 + (octet.toNat - 0x80)⟩ ih
      · rw [if_neg (by simpa using hwithin)]
        exact ⟨nofun, fun h => absurd h.1 hwithin⟩

/-- Octets are decoded exactly if they are the encoding of some characters, and then to these. -/
theorem decode_eq_ok_iff {octets : List UInt8} {cs : List Char} :
    decode octets = .ok cs ↔ octets = octetsOf cs :=
  decodeAt_eq_ok_iff octets 0 [] ⟨0, 0x80, 0xBF, 0⟩ cs

end SourceGauge.Utf8
