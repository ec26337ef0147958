import Neroshop.Converter.Buffer
import Neroshop.Lib.Mean

/-!
# Converter — where the price comes from

When the price that `convert_xmr` converts with is the mean of quotes that
the services really gave. The services answer well or not at all here: every
answer has the fields that are read from it, with positive prices and rates.

* `WellFormed`: the assumption on the services.
* `Genuine` and `MeanOfQuotes`: a quote that a service gave, and the mean of such
  quotes as the price of a conversion.
* `Covered`: nothing is converted by a rate that was not reported.
* `convertXmr_meanOfQuotes_iff`: the price is such a mean exactly when the call
  is covered.
-/

namespace Neroshop.Converter

open Lib.CStr Lib.EState Lib.Mean
open Lib.JsonDoc (Json JsonError Access readNum_ok_iff readStr_ok_iff readNum_append
  readStr_append)

variable (lib : Library) (net : Net)

/-! ## The value of a call -/

/-- The rates that the rate request reported. -/
def reportedRates : List (Bytes × ℚ) := (answer lib (rates lib) (net ratesUrl)).getD []

/-- The prices of a source, when its request succeeds. -/
def offersOf (source : Source) : List Offer :=
  (answer lib source.offers (net source.url)).getD []

/-- What the sources add to `prices`. -/
def quotesOf (rate : ℚ) (srcs : List Source) : List Quote :=
  srcs.flatMap fun source => (offersOf lib net source).map (Offer.quote rate)

/-- What a call makes when no answer is rejected. -/
def conversion (quantity : ℚ) (currency : Bytes) (toXmr : Bool) : Conversion :=
  let currency := lib.lower currency
  if isSupportedCurrency currency && 0 ≤ quantity then
    let prices := quotesOf lib net (usdRate (reportedRates lib net) currency)
      (sources lib currency)
    ⟨prices, finalPrice quantity toXmr prices⟩
  else ⟨[], some (-1)⟩

/-- Every answer of the services has the expected fields, with prices and
rates that are positive. -/
structure WellFormed (currency : Bytes) : Prop where
  rates_read : rejects lib (rates lib) (net ratesUrl) = false
  rates_pos : ∀ entry ∈ reportedRates lib net, 0 < entry.2
  offers_read : ∀ source ∈ sources lib (lib.lower currency),
    rejects lib source.offers (net source.url) = false
  offers_pos : ∀ source ∈ sources lib (lib.lower currency),
    ∀ offer ∈ offersOf lib net source, 0 < offer.price

instance (currency : Bytes) : Decidable (WellFormed lib net currency) :=
  decidable_of_iff
    (rejects lib (rates lib) (net ratesUrl) = false
      ∧ (∀ entry ∈ reportedRates lib net, 0 < entry.2)
      ∧ (∀ source ∈ sources lib (lib.lower currency),
          rejects lib source.offers (net source.url) = false)
      ∧ ∀ source ∈ sources lib (lib.lower currency),
          ∀ offer ∈ offersOf lib net source, 0 < offer.price)
    ⟨fun ⟨h₁, h₂, h₃, h₄⟩ => ⟨h₁, h₂, h₃, h₄⟩, fun ⟨h₁, h₂, h₃, h₄⟩ => ⟨h₁, h₂, h₃, h₄⟩⟩

theorem collect_eq (rate : ℚ) {srcs : List Source}
    (hread : ∀ source ∈ srcs, rejects lib source.offers (net source.url) = false)
    {s : Static} (hempty : s.jsonString = []) :
    ∃ s', collect lib net rate srcs s = .ok (quotesOf lib net rate srcs) s' := by
  induction srcs generalizing s with
  | nil => exact ⟨s, rfl⟩
  | cons source srcs ih =>
      have hfetch := fetch_empty lib net source.url source.offers hempty
      rw [if_neg (by simp [hread source])] at hfetch
      obtain ⟨s₁, hs₁, hempty₁, -⟩ := hfetch
      have hrest : ∀ src ∈ srcs, rejects lib src.offers (net src.url) = false := by
        intro src hsrc
        exact hread src (by simp [hsrc])
      obtain ⟨s₂, hs₂⟩ := ih hrest hempty₁
      exact ⟨s₂, by simp [collect, hs₁, hs₂, quotesOf, offersOf]⟩

/-- The text that an answered rate request leaves to parse is its own body. -/
def OwnText (s : Static) : Prop := (net ratesUrl).ok = true → s.jsonString = []

theorem fetch_rates {s : Static} (hread : rejects lib (rates lib) (net ratesUrl) = false)
    (hown : OwnText net s) :
    ∃ s', fetch lib net ratesUrl (rates lib) s
        = .ok (answer lib (rates lib) (net ratesUrl)) s' ∧ s'.jsonString = [] := by
  cases hok : (net ratesUrl).ok with
  | false =>
      -- what the buffer held before the request is cleared with the rest
      exact ⟨{ s with jsonString := [], starts := s.starts ++ [s.jsonString] },
        by simp [fetch, request, clear, answer, hok], rfl⟩
  | true =>
      have hfetch := fetch_empty lib net ratesUrl (rates lib) (hown hok)
      rw [if_neg (by simp [hread])] at hfetch
      obtain ⟨s', hs', hempty, -⟩ := hfetch
      exact ⟨s', hs', hempty⟩

/-- **The value of a call** whose services answer well. -/
theorem convertXmr_eq (quantity : ℚ) {currency : Bytes} (toXmr : Bool)
    (hwell : WellFormed lib net currency) {s : Static} (hown : OwnText net s) :
    ∃ s', convertXmr lib net quantity currency toXmr s
      = .ok (conversion lib net quantity currency toXmr) s' := by
  obtain ⟨s₁, hs₁, hempty₁⟩ := fetch_rates lib net hwell.rates_read hown
  obtain ⟨s₂, hs₂⟩ := collect_eq lib net
    (usdRate (reportedRates lib net) (lib.lower currency)) hwell.offers_read hempty₁
  rw [reportedRates] at hs₂
  by_cases hgo : (isSupportedCurrency (lib.lower currency) && 0 ≤ quantity) = true
  · exact ⟨s₂, by simp [convertXmr, conversion, hs₁, hgo, hs₂, reportedRates]⟩
  · exact ⟨s₁, by simp [convertXmr, conversion, hs₁, hgo]⟩

/-! ## What the services report -/

/-- The answer for `url` has the value `v` at `path`. -/
def Says (url : Bytes) (path : List (Access Bytes)) (v : Doc) : Prop :=
  (net url).ok = true ∧ ∃ j, lib.parse (net url).body = some j ∧ j.find path = some v

/-- One of the services gave this price in the currency. -/
def ReportsPrice (currency : Bytes) (price : ℚ) : Prop :=
  Says lib net (coingecko currency).url
      [.key (ascii "monero"), .key currency] (.num price)
    ∨ Says lib net (coinmarketcap currency).url
      [.key (ascii "data"), .item 0, .key (ascii "quotes"), .item 0,
        .key (ascii "price")] (.num price)
    ∨ Says lib net (cointelegraph lib currency).url
      [.key (ascii "data"), .key (ascii "XMR"), .key (lib.upper currency),
        .key (ascii "price")] (.num price)

/-- One of the services gave this price in USD. -/
def ReportsUsd (currency : Bytes) (price : ℚ) : Prop :=
  (∃ i, Says lib net cryptowatch.url
      [.key (ascii "result"), .key (ascii "rows"), .item i,
        .key (ascii "lastPriceByAsset"), .key (ascii "usd")] (.num price))
    ∨ Says lib net (cointelegraph lib currency).url
      [.key (ascii "data"), .key (ascii "XMR"), .key (ascii "USD"),
        .key (ascii "price")] (.num price)
    ∨ Says lib net cryptorank.url
      [.key (ascii "data"), .key (ascii "price"), .key (ascii "USD")] (.num price)
    ∨ Says lib net coincodex.url [.key (ascii "last_price_usd")] (.num price)

/-- The rate request gave this rate of the currency. -/
def ReportsRate (currency : Bytes) (rate : ℚ) : Prop :=
  ∃ i name, lib.lower name = currency
    ∧ Says lib net ratesUrl
      [.key (ascii "data"), .item i, .key (ascii "symbol")] (.str name)
    ∧ Says lib net ratesUrl
      [.key (ascii "data"), .item i, .key (ascii "quotes"), .item 0,
        .key (ascii "price")] (.num rate)

/-- A quote that the services gave: a price in the currency, or a USD price
over a rate that was reported for the currency. -/
def Genuine (currency : Bytes) : Quote → Prop
  | .direct price => ReportsPrice lib net currency price
  | .viaUsd price rate =>
      ReportsUsd lib net currency price ∧ ReportsRate lib net currency rate

theorem exists_of_mem_answer {α : Type} {fields : Doc → Except JsonError (List α)}
    {r : Response} {a : α} (h : a ∈ (answer lib fields r).getD []) :
    r.ok = true ∧ ∃ j as, lib.parse r.body = some j ∧ fields j = .ok as ∧ a ∈ as := by
  unfold answer at h
  cases hok : r.ok with
  | false => simp [hok] at h
  | true =>
      cases hparse : lib.parse r.body with
      | none => simp [hok, hparse] at h
      | some j =>
          cases hfields : fields j with
          | error e => simp [hok, hparse, hfields, Except.toOption] at h
          | ok as =>
              exact ⟨rfl, j, as, rfl, hfields, by
                simpa [hok, hparse, hfields, Except.toOption] using h⟩

theorem reportsRate_of_mem {name : Bytes} {rate : ℚ}
    (h : (name, rate) ∈ reportedRates lib net) : ReportsRate lib net name rate := by
  obtain ⟨hok, j, entries, hparse, hentries, hmem⟩ := exists_of_mem_answer lib h
  obtain ⟨currencies, hdata, hall⟩ := bind_eq_ok.mp hentries
  obtain ⟨i, -, hi⟩ := exists_of_mem_mapM hall hmem
  simp only [bind_eq_ok] at hi
  obtain ⟨symbol, hsymbol, price, hprice, hpair⟩ := hi
  cases hpair
  exact ⟨i, symbol, rfl,
    ⟨hok, j, hparse, readStr_ok_iff.mp (readStr_append hdata hsymbol)⟩,
    ⟨hok, j, hparse, readNum_ok_iff.mp (readNum_append hdata hprice)⟩⟩

theorem exists_of_mem_read {j : Doc} {path : List (Access Bytes)} {mk : ℚ → Offer}
    {offers : List Offer} {offer : Offer}
    (h : (j.readNum path >>= fun price => pure [mk price]) = .ok offers)
    (hmem : offer ∈ offers) :
    ∃ price, j.find path = some (.num price) ∧ offer = mk price := by
  obtain ⟨price, hprice, hone⟩ := bind_eq_ok.mp h
  cases hone
  exact ⟨price, readNum_ok_iff.mp hprice, List.mem_singleton.mp hmem⟩

/-- The offers of the sources are reported prices. -/
theorem reports_of_mem {currency : Bytes} {source : Source}
    (hsource : source ∈ sources lib currency) {offer : Offer}
    (h : offer ∈ offersOf lib net source) :
    match offer with
    | .inCurrency price => ReportsPrice lib net currency price
    | .inUsd price => ReportsUsd lib net currency price := by
  obtain ⟨hok, j, offers, hparse, hoffers, hmem⟩ := exists_of_mem_answer lib h
  simp only [sources, List.mem_cons, List.not_mem_nil, or_false] at hsource
  rcases hsource with rfl | rfl | rfl | rfl | rfl | rfl
  · obtain ⟨price, hfind, rfl⟩ := exists_of_mem_read hoffers hmem
    exact .inl ⟨hok, j, hparse, hfind⟩
  · obtain ⟨price, hfind, rfl⟩ := exists_of_mem_read hoffers hmem
    exact .inr (.inl ⟨hok, j, hparse, hfind⟩)
  · obtain ⟨rows, hrows, hall⟩ := bind_eq_ok.mp hoffers
    obtain ⟨i, -, hi⟩ := exists_of_mem_mapM hall hmem
    obtain ⟨price, hprice, hone⟩ := bind_eq_ok.mp hi
    cases hone
    exact .inl ⟨i, hok, j, hparse, readNum_ok_iff.mp (readNum_append hrows hprice)⟩
  · obtain ⟨own, -, hbranch⟩ := bind_eq_ok.mp hoffers
    split at hbranch
    · obtain ⟨price, hfind, rfl⟩ := exists_of_mem_read hbranch hmem
      exact .inr (.inl ⟨hok, j, hparse, hfind⟩)
    · obtain ⟨price, hfind, rfl⟩ := exists_of_mem_read hbranch hmem
      exact .inr (.inr ⟨hok, j, hparse, hfind⟩)
  · obtain ⟨price, hfind, rfl⟩ := exists_of_mem_read hoffers hmem
    exact .inr (.inr (.inl ⟨hok, j, hparse, hfind⟩))
  · obtain ⟨price, hfind, rfl⟩ := exists_of_mem_read hoffers hmem
    exact .inr (.inr (.inr ⟨hok, j, hparse, hfind⟩))

/-! ## The mean -/

/-- The call answers `-1`: for the currency, for the quantity, or without a price. -/
def Refused (quantity : ℚ) (currency : Bytes) (c : Conversion) : Prop :=
  isSupportedCurrency (lib.lower currency) = false ∨ quantity < 0 ∨ c.prices = []

/-- A conversion at the mean of real quotes. -/
structure MeanOfQuotes (quantity : ℚ) (currency : Bytes) (toXmr : Bool)
    (c : Conversion) : Prop where
  -- no division by zero
  defined : (∀ quote ∈ c.prices, quote.value ≠ none) ∧ c.result ≠ none
  genuine : ∀ quote ∈ c.prices, Genuine lib net (lib.lower currency) quote
  refused : c.result = some (-1) ↔ Refused lib quantity currency c
  converted : ¬ Refused lib quantity currency c →
    ∃ values, c.prices.map Quote.value = values.map some
      ∧ c.result = some (if toXmr then quantity / mean values else quantity * mean values)
      ∧ 0 < mean values
      ∧ ∃ lo ∈ values, ∃ hi ∈ values, (∀ x ∈ values, lo ≤ x ∧ x ≤ hi)
          ∧ lo ≤ mean values ∧ mean values ≤ hi

/-- No quote goes through a rate that was not reported: the call converts
nothing, or the rate request reported the currency, or no answering source
offers a price in USD only. -/
def Covered (quantity : ℚ) (currency : Bytes) : Prop :=
  isSupportedCurrency (lib.lower currency) = false ∨ quantity < 0
    ∨ (∃ rate, (lib.lower currency, rate) ∈ reportedRates lib net)
    ∨ ∀ source ∈ sources lib (lib.lower currency), ∀ price,
        .inUsd price ∉ offersOf lib net source

theorem usdRate_mem {table : List (Bytes × ℚ)} {currency : Bytes} {rate : ℚ}
    (h : (currency, rate) ∈ table) : (currency, usdRate table currency) ∈ table := by
  cases hl : table.reverse.lookup currency with
  | none =>
      have hnone := List.lookup_eq_none_iff.mp hl (currency, rate) (by simpa using h)
      simp at hnone
  | some r =>
      obtain ⟨l₁, l₂, hsplit, -⟩ := List.lookup_eq_some_iff.mp hl
      have hmem : (currency, r) ∈ table.reverse := by simp [hsplit]
      simpa [usdRate, hl] using hmem

theorem usdRate_absent {table : List (Bytes × ℚ)} {currency : Bytes}
    (h : ∀ rate, (currency, rate) ∉ table) : usdRate table currency = 0 := by
  have hl : table.reverse.lookup currency = none := by
    rw [List.lookup_eq_none_iff]
    intro h hmem
    obtain ⟨name, rate⟩ := h
    have hne : currency ≠ name := by
      intro heq
      exact h rate (by simpa [heq] using hmem)
    simpa using hne
  simp [usdRate, hl]

theorem mapM_value_eq {prices : List Quote} {values : List ℚ}
    (h : prices.map Quote.value = values.map some) :
    prices.mapM Quote.value = some values := by
  induction prices generalizing values with
  | nil =>
      cases values with
      | nil => rfl
      | cons v values => cases h
  | cons price prices ih =>
      cases values with
      | nil => cases h
      | cons v values =>
          simp only [List.map_cons, List.cons.injEq] at h
          rw [List.mapM_cons, h.1, ih h.2]
          rfl

/-- **The final computation**, over quotes with positive values. -/
theorem finalPrice_eq {quantity : ℚ} {toXmr : Bool} {prices : List Quote}
    (hne : prices ≠ []) {values : List ℚ} (hvalues : prices.map Quote.value = values.map some)
    (hpos : ∀ x ∈ values, 0 < x) :
    finalPrice quantity toXmr prices
      = some (if toXmr then quantity / mean values else quantity * mean values) := by
  have hvne : values ≠ [] := by
    rintro rfl
    exact hne (List.map_eq_nil_iff.mp hvalues)
  have hmean : divide values.sum values.length = some (mean values) :=
    if_neg (length_pos hvne).ne'
  have hdiv : divide quantity (mean values) = some (quantity / mean values) :=
    if_neg (mean_pos hvne hpos).ne'
  rw [finalPrice, if_neg (by simpa using hne), mapM_value_eq hvalues]
  cases toXmr with
  | true => simp [hmean, hdiv]
  | false => simp [hmean, mul_comm]

theorem exists_values {prices : List Quote}
    (h : ∀ quote ∈ prices, ∃ x, quote.value = some x ∧ 0 < x) :
    ∃ values : List ℚ, prices.map Quote.value = values.map some
      ∧ ∀ x ∈ values, 0 < x := by
  induction prices with
  | nil => exact ⟨[], rfl, by simp⟩
  | cons quote prices ih =>
      obtain ⟨x, hx, hpos⟩ := h quote (by simp)
      have hrest : ∀ q ∈ prices, ∃ x, q.value = some x ∧ 0 < x := by
        intro q hq
        exact h q (by simp [hq])
      obtain ⟨values, hvalues, hall⟩ := ih hrest
      exact ⟨x :: values, by simp [hx, hvalues], by simpa [hpos] using hall⟩

variable {lib net}

theorem mem_quotesOf {rate : ℚ} {srcs : List Source} {quote : Quote} :
    quote ∈ quotesOf lib net rate srcs
      ↔ ∃ source ∈ srcs, ∃ offer ∈ offersOf lib net source, offer.quote rate = quote := by
  simp [quotesOf]

/-- **Covered quotes** are genuine, and have positive values. -/
theorem genuine_of_covered {currency : Bytes} (hwell : WellFormed lib net currency)
    (hcovered : (∃ rate, (lib.lower currency, rate) ∈ reportedRates lib net)
      ∨ ∀ source ∈ sources lib (lib.lower currency), ∀ price,
          .inUsd price ∉ offersOf lib net source)
    {quote : Quote}
    (hquote : quote ∈ quotesOf lib net
      (usdRate (reportedRates lib net) (lib.lower currency))
      (sources lib (lib.lower currency))) :
    Genuine lib net (lib.lower currency) quote ∧ ∃ x, quote.value = some x ∧ 0 < x := by
  obtain ⟨source, hsource, offer, hoffer, rfl⟩ := mem_quotesOf.mp hquote
  have hreports := reports_of_mem lib net hsource hoffer
  have hpos := hwell.offers_pos source hsource offer hoffer
  cases offer with
  | inCurrency price => exact ⟨hreports, price, rfl, hpos⟩
  | inUsd price =>
      rcases hcovered with ⟨rate, hrate⟩ | hnone
      · have hmem := usdRate_mem hrate
        have hratePos := hwell.rates_pos _ hmem
        exact ⟨⟨hreports, reportsRate_of_mem lib net hmem⟩, _, if_neg hratePos.ne',
          div_pos hpos hratePos⟩
      · exact absurd hoffer (hnone source hsource price)

theorem converted_nonneg {quantity rate : ℚ} (toXmr : Bool) (hquantity : 0 ≤ quantity)
    (hrate : 0 < rate) : 0 ≤ if toXmr then quantity / rate else quantity * rate := by
  split
  · exact div_nonneg hquantity hrate.le
  · exact mul_nonneg hquantity hrate.le

theorem meanOfQuotes_final {quantity : ℚ} {currency : Bytes} (toXmr : Bool)
    {prices : List Quote} (hsupported : isSupportedCurrency (lib.lower currency) = true)
    (hquantity : 0 ≤ quantity)
    (hquotes : ∀ quote ∈ prices, Genuine lib net (lib.lower currency) quote
      ∧ ∃ x, quote.value = some x ∧ 0 < x) :
    MeanOfQuotes lib net quantity currency toXmr
      ⟨prices, finalPrice quantity toXmr prices⟩ := by
  have hrefused : Refused lib quantity currency ⟨prices, finalPrice quantity toXmr prices⟩
      ↔ prices = [] := by
    simp [Refused, hsupported, not_lt.mpr hquantity]
  have hvalue : ∀ quote ∈ prices, quote.value ≠ none := by
    intro quote hquote
    obtain ⟨-, x, hx, -⟩ := hquotes quote hquote
    simp [hx]
  have hgenuine : ∀ quote ∈ prices, Genuine lib net (lib.lower currency) quote := by
    intro quote hquote
    exact (hquotes quote hquote).1
  have hpositive : ∀ quote ∈ prices, ∃ x, quote.value = some x ∧ 0 < x := by
    intro quote hquote
    exact (hquotes quote hquote).2
  by_cases hne : prices = []
  · have hfinal : finalPrice quantity toXmr prices = some (-1) := by simp [finalPrice, hne]
    exact ⟨⟨hvalue, by simp [hfinal]⟩, hgenuine,
      iff_of_true hfinal (hrefused.mpr hne), fun h => absurd (hrefused.mpr hne) h⟩
  · obtain ⟨values, hvalues, hpos⟩ := exists_values hpositive
    have hfinal := @finalPrice_eq quantity toXmr prices hne values hvalues hpos
    have hvne : values ≠ [] := by
      rintro rfl
      exact hne (List.map_eq_nil_iff.mp hvalues)
    have hmean := mean_pos hvne hpos
    -- a result of -1 would be a negative amount
    have hnonneg := converted_nonneg toXmr hquantity hmean
    refine ⟨⟨hvalue, by simp [hfinal]⟩, hgenuine, ?_, ?_⟩
    · apply iff_of_false
      · intro h
        rw [Option.some.inj (hfinal.symm.trans h)] at hnonneg
        exact absurd hnonneg (by decide)
      · exact mt hrefused.mp hne
    · intro _
      exact ⟨values, hvalues, hfinal, hmean, mean_between hvne⟩

theorem meanOfQuotes_refused {quantity : ℚ} {currency : Bytes} (toXmr : Bool)
    (h : Refused lib quantity currency ⟨[], some (-1)⟩) :
    MeanOfQuotes lib net quantity currency toXmr ⟨[], some (-1)⟩ :=
  ⟨⟨by simp, by simp⟩, by simp, iff_of_true rfl h, fun hn => absurd h hn⟩

theorem meanOfQuotes_of_covered {quantity : ℚ} {currency : Bytes} (toXmr : Bool)
    (hwell : WellFormed lib net currency)
    (hcovered : Covered lib net quantity currency) :
    MeanOfQuotes lib net quantity currency toXmr
      (conversion lib net quantity currency toXmr) := by
  by_cases hsupported : isSupportedCurrency (lib.lower currency) = true
  · by_cases hquantity : 0 ≤ quantity
    · have hcov := (hcovered.resolve_left (by simp [hsupported])).resolve_left
        (not_lt.mpr hquantity)
      rw [conversion, if_pos (by simp [hsupported, hquantity])]
      apply meanOfQuotes_final toXmr hsupported hquantity
      intro quote hquote
      exact genuine_of_covered hwell hcov hquote
    · rw [conversion, if_neg (by simp [hquantity])]
      exact meanOfQuotes_refused toXmr (.inr (.inl (not_le.mp hquantity)))
  · rw [conversion, if_neg (by simp [hsupported])]
    exact meanOfQuotes_refused toXmr (.inl (by simpa using hsupported))

theorem covered_of_meanOfQuotes {quantity : ℚ} {currency : Bytes} {toXmr : Bool}
    (h : MeanOfQuotes lib net quantity currency toXmr
      (conversion lib net quantity currency toXmr)) :
    Covered lib net quantity currency := by
  by_contra hcovered
  simp only [Covered, not_or, not_exists, not_forall, not_not] at hcovered
  obtain ⟨hsupported, hquantity, habsent, source, hsource, price, hoffer⟩ := hcovered
  have hgo : (isSupportedCurrency (lib.lower currency) && 0 ≤ quantity) = true := by
    simp [hsupported, not_lt.mp hquantity]
  have hzero := usdRate_absent habsent
  have hmem : Quote.viaUsd price 0 ∈ (conversion lib net quantity currency toXmr).prices := by
    rw [conversion, if_pos hgo]
    exact mem_quotesOf.mpr ⟨source, hsource, .inUsd price, hoffer, by rw [hzero]; rfl⟩
  exact h.defined.1 _ hmem (by simp [Quote.value, divide])

/-- **The price**: on services that answer well or not at all, a call
returns, and it converts at the mean of quotes that the services really gave
exactly when it is covered. -/
theorem convertXmr_meanOfQuotes_iff (lib : Library) (net : Net) (quantity : ℚ)
    (currency : Bytes) (toXmr : Bool) (hwell : WellFormed lib net currency)
    (s : Static) (hown : OwnText net s) :
    ∃ c s', convertXmr lib net quantity currency toXmr s = .ok c s'
      ∧ (MeanOfQuotes lib net quantity currency toXmr c
        ↔ Covered lib net quantity currency) := by
  obtain ⟨s', hs'⟩ := convertXmr_eq lib net quantity toXmr hwell hown
  exact ⟨_, s', hs', covered_of_meanOfQuotes, meanOfQuotes_of_covered toXmr hwell⟩

/-- A library that knows some texts. -/
def parsing (docs : List (Bytes × Doc)) : Library where
  parse response := docs.lookup response
  lower text := text.map fun b => if 65 ≤ b && b ≤ 90 then b + 32 else b
  upper text := text.map fun b => if 97 ≤ b && b ≤ 122 then b - 32 else b

/-- The services at some urls answer, and no others. -/
def answering (answers : List (Bytes × Bytes)) : Net := fun url =>
  match answers.lookup url with
  | none => ⟨[], false⟩
  | some text => ⟨text, true⟩

/-- `{"data":[{"symbol":"EUR","quotes":[{"price":1.25}]}]}` -/
def ratesText : Bytes :=
  ascii ("\x7b\"data\":[\x7b\"symbol\":\"EUR\",\"quotes\":"
    ++ "[\x7b\"price\":1.25\x7d]\x7d]\x7d")

/-- `ratesText`, parsed. -/
def ratesDoc : Doc :=
  .obj [(ascii "data", .arr [.obj [(ascii "symbol", .str (ascii "EUR")),
    (ascii "quotes", .arr [.obj [(ascii "price", .num (5 / 4))]])]])]

/-- `{"monero":{"eur":130}}` -/
def coingeckoText : Bytes := ascii "\x7b\"monero\":\x7b\"eur\":130\x7d\x7d"

/-- `coingeckoText`, parsed. -/
def coingeckoDoc : Doc := .obj [(ascii "monero", .obj [(ascii "eur", .num 130)])]

/-- `{"last_price_usd":150}` -/
def coincodexText : Bytes := ascii "\x7b\"last_price_usd\":150\x7d"

/-- `coincodexText`, parsed. -/
def coincodexDoc : Doc := .obj [(ascii "last_price_usd", .num 150)]

/-- A price in EUR and one in USD, at a reported rate: 130, and 150 / 1.25. -/
theorem convertXmr_meanOfQuotes_two :
    let lib := parsing [(ratesText, ratesDoc), (coingeckoText, coingeckoDoc),
      (coincodexText, coincodexDoc)]
    let net := answering [(ratesUrl, ratesText),
      ((coingecko (ascii "eur")).url, coingeckoText), (coincodex.url, coincodexText)]
    ∃ c s', convertXmr lib net 3 (ascii "EUR") true .start = .ok c s'
      ∧ MeanOfQuotes lib net 3 (ascii "EUR") true c := by
  intro lib net
  obtain ⟨c, s', hrun, hiff⟩ := convertXmr_meanOfQuotes_iff lib net 3 (ascii "EUR") true
    (by decide +kernel) .start fun _ => rfl
  exact ⟨c, s', hrun, hiff.mpr (.inr (.inr (.inl ⟨5 / 4, by decide +kernel⟩)))⟩

/-- Without the rate request, the price in USD of `coincodex` is divided by
the zero that the map inserts for the currency. -/
theorem convertXmr_divides_by_zero :
    let lib := parsing [(coincodexText, coincodexDoc)]
    let net := answering [(coincodex.url, coincodexText)]
    WellFormed lib net (ascii "eur") ∧
      ∃ s', convertXmr lib net 3 (ascii "eur") true .start
          = .ok ⟨[.viaUsd 150 0], none⟩ s'
        ∧ ¬ MeanOfQuotes lib net 3 (ascii "eur") true ⟨[.viaUsd 150 0], none⟩ := by
  intro lib net
  have hwell : WellFormed lib net (ascii "eur") := by decide +kernel
  have hvalue : conversion lib net 3 (ascii "eur") true = ⟨[.viaUsd 150 0], none⟩ := by
    decide +kernel
  obtain ⟨s', hs'⟩ := convertXmr_eq lib net 3 true hwell (s := Static.start) fun _ => rfl
  exact ⟨hwell, s', by rw [hs', hvalue], fun h => h.defined.2 rfl⟩

end Neroshop.Converter
