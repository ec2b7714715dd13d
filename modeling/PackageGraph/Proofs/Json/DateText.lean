import PackageGraph.Json.Typed
import PackageGraph.Proofs.Text.Split
/-!
# Texts of dates and times

A text has the form of a date and time exactly if it is written from parts: year, month and day between hyphens, a `T`,
hours and minutes, seconds with a fraction or without or none at all, and an offset or none. Digits of every script
stand in the parts, a line end may follow them, and they need not be those of a date that exists.
-/
namespace PackageGraph.Json

open Text

/-! ## Parts -/

/-- The text is so many digits. -/
structure IsDigits (count : Nat) (cs : List Char) : Prop where
  length : cs.length = count
  digits : ∀ c ∈ cs, isDigit c = true

/-- The offset at the end of a date and time. -/
inductive Zone where
  | unknown
  | universal
  | ahead (hours minutes : List Char)
  | behind (hours minutes : List Char)

namespace Zone

def text : Zone → List Char
  | unknown => []
  | universal => ['Z']
  | ahead hours minutes => '+' :: (hours ++ ':' :: minutes)
  | behind hours minutes => '-' :: (hours ++ ':' :: minutes)

/-- Hours and minutes are two digits each. -/
def WellFormed : Zone → Prop
  | unknown | universal => True
  | ahead hours minutes | behind hours minutes => IsDigits 2 hours ∧ IsDigits 2 minutes

/-- The offset in minutes. -/
def offset : Zone → Option Int
  | unknown => none
  | universal => some 0
  | ahead hours minutes => some ((digitsValue hours * 60 + digitsValue minutes : Nat) : Int)
  | behind hours minutes => some (-((digitsValue hours * 60 + digitsValue minutes : Nat) : Int))

end Zone

/-- The text of a date and time in its parts. Missing seconds and a missing fraction are empty. -/
structure DateText where
  year : List Char
  month : List Char
  day : List Char
  hour : List Char
  minute : List Char
  second : List Char
  fraction : List Char
  zone : Zone

namespace DateText

/-- The text of seconds with their fraction. -/
def secondsText (second fraction : List Char) : List Char :=
  if second = [] then [] else ':' :: (second ++ if fraction = [] then [] else '.' :: fraction)

/-- The text that the parts make up. -/
def text (d : DateText) : List Char :=
  d.year ++ '-' :: (d.month ++ '-' :: (d.day ++ 'T' :: (d.hour ++ ':' :: (d.minute ++
    (secondsText d.second d.fraction ++ d.zone.text)))))

/-- What may stand in each part; a fraction stands behind seconds only. -/
structure WellFormed (d : DateText) : Prop where
  year : IsDigits 4 d.year
  month : IsDigits 2 d.month
  day : IsDigits 2 d.day
  hour : IsDigits 2 d.hour
  minute : IsDigits 2 d.minute
  second : (d.second = [] ∧ d.fraction = []) ∨ IsDigits 2 d.second
  fraction : ∀ c ∈ d.fraction, isDigit c = true
  zone : d.zone.WellFormed

/-- The date and time that the parts denote. -/
def timestamp (d : DateText) : Timestamp :=
  ⟨⟨digitsValue d.year, digitsValue d.month, digitsValue d.day⟩, digitsValue d.hour, digitsValue d.minute,
    digitsValue d.second, microsOf d.fraction, d.zone.offset⟩

end DateText

/-! ## Taking parts off -/

/-- A run of `count` digits is read exactly off a text that begins with one, and what follows it is left. -/
theorem digits?_eq_some_iff {count n : Nat} {cs rest : List Char} :
    digits? count cs = some (n, rest) ↔ ∃ ds, IsDigits count ds ∧ digitsValue ds = n ∧ cs = ds ++ rest := by
  constructor
  · intro h
    -- the run is cut off by its length before its characters are looked at
    simp only [digits?] at h
    split at h
    · rename_i hrun
      obtain ⟨hvalue, hrest⟩ := Prod.mk.inj (Option.some.inj h)
      refine ⟨cs.take count, ⟨hrun.1, by simpa using hrun.2⟩, hvalue, ?_⟩
      rw [← hrest, List.take_append_drop]
    · cases h
  · rintro ⟨ds, ⟨rfl, hdigits⟩, rfl, rfl⟩
    have hrun : ds.length = ds.length ∧ ds.all isDigit = true := ⟨rfl, List.all_eq_true.2 hdigits⟩
    rw [digits?, List.take_left, List.drop_left, if_pos hrun]

/-- A run of digits is read back whatever follows it, be it another digit. -/
theorem IsDigits.digits?_append {count : Nat} {ds : List Char} (h : IsDigits count ds) (rest : List Char) :
    digits? count (ds ++ rest) = some (digitsValue ds, rest) :=
  digits?_eq_some_iff.2 ⟨ds, h, rfl, rfl⟩

theorem after?_eq_some_iff {c : Char} {cs rest : List Char} : after? c cs = some rest ↔ cs = c :: rest := by
  cases cs with
  | nil => simp [after?]
  | cons d cs =>
    simp only [after?, Option.ite_none_right_eq_some, Option.some.injEq, List.cons.injEq]
    exact and_congr_left' eq_comm

/-- The amount of an offset is two digits of hours and two of minutes with a colon between them. -/
theorem offsetMinutes?_eq_some_iff {cs rest : List Char} {n : Nat} : offsetMinutes? cs = some (n, rest) ↔
    ∃ hours minutes, IsDigits 2 hours ∧ IsDigits 2 minutes ∧ digitsValue hours * 60 + digitsValue minutes = n ∧
      cs = hours ++ ':' :: minutes ++ rest := by
  simp only [offsetMinutes?, Option.bind_eq_bind, Option.bind_eq_some_iff, Option.pure_def, Option.some.injEq,
    Prod.exists, Prod.mk.injEq]
  constructor
  · rintro ⟨_, _, hfirst, _, hcolon, _, _, hlast, hvalue, rfl⟩
    obtain ⟨hours, hhours, rfl, rfl⟩ := digits?_eq_some_iff.1 hfirst
    obtain rfl := after?_eq_some_iff.1 hcolon
    obtain ⟨minutes, hminutes, rfl, rfl⟩ := digits?_eq_some_iff.1 hlast
    exact ⟨hours, minutes, hhours, hminutes, hvalue, by simp⟩
  · rintro ⟨hours, minutes, hhours, hminutes, hvalue, rfl⟩
    exact ⟨_, ':' :: (minutes ++ rest), digits?_eq_some_iff.2 ⟨hours, hhours, rfl, by simp⟩, _,
      after?_eq_some_iff.2 rfl, _, rest, hminutes.digits?_append rest, hvalue, rfl⟩

/-- The offset that is read is that of a well-formed zone, which the text begins with. -/
theorem exists_of_offset? {cs rest : List Char} {o : Option Int} (h : offset? cs = some (o, rest)) :
    ∃ zone : Zone, zone.WellFormed ∧ zone.offset = o ∧ cs = zone.text ++ rest := by
  unfold offset? at h
  split at h
  · obtain ⟨rfl, rfl⟩ := Prod.mk.inj (Option.some.inj h)
    exact ⟨.universal, trivial, rfl, rfl⟩
  · obtain ⟨⟨n, rest'⟩, hread, heq⟩ := Option.map_eq_some_iff.1 h
    obtain ⟨rfl, rfl⟩ := Prod.mk.inj heq
    obtain ⟨hours, minutes, hhours, hminutes, rfl, rfl⟩ := offsetMinutes?_eq_some_iff.1 hread
    exact ⟨.ahead hours minutes, ⟨hhours, hminutes⟩, rfl, rfl⟩
  · obtain ⟨⟨n, rest'⟩, hread, heq⟩ := Option.map_eq_some_iff.1 h
    obtain ⟨rfl, rfl⟩ := Prod.mk.inj heq
    obtain ⟨hours, minutes, hhours, hminutes, rfl, rfl⟩ := offsetMinutes?_eq_some_iff.1 hread
    exact ⟨.behind hours minutes, ⟨hhours, hminutes⟩, rfl, rfl⟩
  · obtain ⟨rfl, rfl⟩ := Prod.mk.inj (Option.some.inj h)
    exact ⟨.unknown, trivial, rfl, rfl⟩

/-- A text ends here, but for one line end. -/
theorem endsHere_iff {cs : List Char} : endsHere cs = true ↔ cs = [] ∨ cs = ['\n'] := by
  simp [endsHere]

/-- The text of a zone at the end of a timestamp is read as its offset. -/
theorem offset?_text {zone : Zone} (hzone : zone.WellFormed) {rest : List Char} (hrest : endsHere rest = true) :
    offset? (zone.text ++ rest) = some (zone.offset, rest) := by
  cases zone with
  | unknown => rcases endsHere_iff.1 hrest with rfl | rfl <;> rfl
  | universal => rfl
  | ahead hours minutes =>
    show (offsetMinutes? (hours ++ ':' :: minutes ++ rest)).map _ = _
    rw [offsetMinutes?_eq_some_iff.2 ⟨hours, minutes, hzone.1, hzone.2, rfl, rfl⟩]
    rfl
  | behind hours minutes =>
    show (offsetMinutes? (hours ++ ':' :: minutes ++ rest)).map _ = _
    rw [offsetMinutes?_eq_some_iff.2 ⟨hours, minutes, hzone.1, hzone.2, rfl, rfl⟩]
    rfl

/-- What follows the seconds goes on with none of their characters. -/
theorem head?_zone {zone : Zone} {rest : List Char} (hrest : endsHere rest = true) :
    ∀ c ∈ (zone.text ++ rest).head?, c ≠ ':' ∧ c ≠ '.' ∧ isDigit c = false := by
  intro c hc
  -- a zone begins with its letter or sign, and the unknown one leaves the end of the text or a final line feed
  cases zone with
  | unknown =>
    rcases endsHere_iff.1 hrest with rfl | rfl
    · cases hc
    · obtain rfl : '\n' = c := Option.some.inj hc
      decide
  | universal =>
    obtain rfl : 'Z' = c := Option.some.inj hc
    decide
  | ahead hours minutes =>
    obtain rfl : '+' = c := Option.some.inj hc
    decide
  | behind hours minutes =>
    obtain rfl : '-' = c := Option.some.inj hc
    decide

open DateText

theorem IsDigits.ne_nil {count : Nat} {cs : List Char} (h : IsDigits (count + 1) cs) : cs ≠ [] := by
  rintro rfl
  cases h.length

/-- The seconds that are read are absent, or two digits and perhaps a fraction of them. -/
theorem exists_of_seconds? {cs rest : List Char} {s m : Nat} (h : seconds? cs = some ((s, m), rest)) :
    ∃ second fraction, ((second = [] ∧ fraction = []) ∨ IsDigits 2 second) ∧ (∀ c ∈ fraction, isDigit c = true) ∧
      digitsValue second = s ∧ microsOf fraction = m ∧ cs = secondsText second fraction ++ rest := by
  unfold seconds? at h
  split at h
  · obtain ⟨⟨n, more⟩, hread, hmore⟩ := Option.bind_eq_some_iff.1 h
    obtain ⟨second, hsecond, rfl, rfl⟩ := digits?_eq_some_iff.1 hread
    -- a point with no digit after it is refused, so the fraction that is read is not empty
    simp only at hmore
    split at hmore
    · rename_i more
      split at hmore
      · cases hmore
      · rename_i hfraction
        obtain ⟨⟨rfl, rfl⟩, rfl⟩ : (_ ∧ _) ∧ _ := by simpa using hmore
        have hne : more.takeWhile isDigit ≠ [] := by simpa using hfraction
        refine ⟨second, more.takeWhile isDigit, .inr hsecond, fun _ => List.mem_takeWhile_imp, rfl, rfl, ?_⟩
        rw [secondsText, if_neg hsecond.ne_nil, if_neg hne]
        simp
    · obtain ⟨⟨rfl, rfl⟩, rfl⟩ : (_ ∧ _) ∧ _ := by simpa using hmore
      refine ⟨second, [], .inr hsecond, by simp, rfl, rfl, ?_⟩
      rw [secondsText, if_neg hsecond.ne_nil]
      simp
  · obtain ⟨⟨rfl, rfl⟩, rfl⟩ : (_ ∧ _) ∧ _ := by simpa using h
    exact ⟨[], [], .inl ⟨rfl, rfl⟩, by simp, rfl, rfl, rfl⟩

/-- Seconds are read up to what follows them. -/
theorem seconds?_text {second fraction rest : List Char} (hsecond : (second = [] ∧ fraction = []) ∨ IsDigits 2 second)
    (hfraction : ∀ c ∈ fraction, isDigit c = true)
    (hrest : ∀ c ∈ rest.head?, c ≠ ':' ∧ c ≠ '.' ∧ isDigit c = false) :
    seconds? (secondsText second fraction ++ rest) = some ((digitsValue second, microsOf fraction), rest) := by
  rcases hsecond with ⟨rfl, rfl⟩ | hsecond
  · show seconds? rest = some ((0, 0), rest)
    unfold seconds?
    split
    · exact absurd rfl (hrest ':' rfl).1
    · rfl
  · rw [secondsText, if_neg hsecond.ne_nil, List.cons_append, List.append_assoc]
    -- without a fraction there is no point, and `rest` does not begin with one
    by_cases hne : fraction = []
    · subst hne
      rw [if_pos rfl, List.nil_append, seconds?, hsecond.digits?_append, Option.bind_eq_bind, Option.bind_some]
      simp only
      split
      · exact absurd rfl (hrest '.' rfl).2.1
      · rfl
    · have hrun : (fraction ++ rest).takeWhile isDigit = fraction :=
        takeWhile_run hfraction fun c hc => (hrest c hc).2.2
      have hdrop : (fraction ++ rest).dropWhile isDigit = rest :=
        dropWhile_run hfraction fun c hc => (hrest c hc).2.2
      have hsome : ¬ fraction.isEmpty = true := by simpa using hne
      rw [if_neg hne, List.cons_append, seconds?, hsecond.digits?_append]
      show (if ((fraction ++ rest).takeWhile isDigit).isEmpty = true then none
        else some ((digitsValue second, microsOf ((fraction ++ rest).takeWhile isDigit)),
          (fraction ++ rest).dropWhile isDigit)) = _
      rw [hrun, hdrop, if_neg hsome]

/-- A text has the form of a date and time exactly if it is written from parts, and these say which it is. -/
theorem timestampForm?_eq_some_iff {cs : List Char} {t : Timestamp} : timestampForm? cs = some t ↔
    ∃ d : DateText, d.WellFormed ∧ d.timestamp = t ∧ ∃ rest, endsHere rest = true ∧ cs = d.text ++ rest := by
  simp only [timestampForm?, Option.bind_eq_bind, Option.bind_eq_some_iff, Prod.exists, Option.ite_none_right_eq_some,
    Option.some.injEq]
  constructor
  · rintro ⟨_, _, hyearRead, _, hyearEnd, _, _, hmonthRead, _, hmonthEnd, _, _, hdayRead, _, hdayEnd,
      _, _, hhourRead, _, hhourEnd, _, _, hminuteRead, _, _, _, hsecondsRead, _, rest, hzoneRead, hend, rfl⟩
    -- the parts are read from the left, so each is named before what follows it
    obtain ⟨year, hyear, rfl, rfl⟩ := digits?_eq_some_iff.1 hyearRead
    obtain rfl := after?_eq_some_iff.1 hyearEnd
    obtain ⟨month, hmonth, rfl, rfl⟩ := digits?_eq_some_iff.1 hmonthRead
    obtain rfl := after?_eq_some_iff.1 hmonthEnd
    obtain ⟨day, hday, rfl, rfl⟩ := digits?_eq_some_iff.1 hdayRead
    obtain rfl := after?_eq_some_iff.1 hdayEnd
    obtain ⟨hour, hhour, rfl, rfl⟩ := digits?_eq_some_iff.1 hhourRead
    obtain rfl := after?_eq_some_iff.1 hhourEnd
    obtain ⟨minute, hminute, rfl, rfl⟩ := digits?_eq_some_iff.1 hminuteRead
    obtain ⟨second, fraction, hsecond, hfraction, rfl, rfl, rfl⟩ := exists_of_seconds? hsecondsRead
    obtain ⟨zone, hzone, rfl, rfl⟩ := exists_of_offset? hzoneRead
    exact ⟨⟨year, month, day, hour, minute, second, fraction, zone⟩,
      ⟨hyear, hmonth, hday, hhour, hminute, hsecond, hfraction, hzone⟩, rfl, rest, hend, by simp [DateText.text]⟩
  · rintro ⟨d, hd, rfl, rest, hend, rfl⟩
    have htext : d.text ++ rest = d.year ++ '-' :: (d.month ++ '-' :: (d.day ++ 'T' :: (d.hour ++ ':' :: (d.minute ++
        (secondsText d.second d.fraction ++ (d.zone.text ++ rest)))))) := by simp [DateText.text]
    rw [htext]
    exact ⟨_, _, hd.year.digits?_append _, _, after?_eq_some_iff.2 rfl,
      _, _, hd.month.digits?_append _, _, after?_eq_some_iff.2 rfl,
      _, _, hd.day.digits?_append _, _, after?_eq_some_iff.2 rfl,
      _, _, hd.hour.digits?_append _, _, after?_eq_some_iff.2 rfl,
      _, _, hd.minute.digits?_append _, _, _, _, seconds?_text hd.second hd.fraction (head?_zone hend),
      _, rest, offset?_text hd.zone hend, hend, rfl⟩

end PackageGraph.Json
