import Mathlib.Algebra.Order.Ring.Rat
import Neroshop.Lib.CStr
import Neroshop.Lib.EState
import Neroshop.Lib.JsonDoc

/-!
# Converter — `convert_xmr`

`converter.cpp`. The seven request blocks share one shape (request, parse,
read the fields, clear the static buffer), which is `fetch`; a source is its
url and its fields. Prices are exact numbers and a division is guarded:
`none` is a division by zero.

What the remote services answer is a function of the url. The JSON parser
and the two case conversions are parameters.
-/

namespace Neroshop.Converter

open Lib.CStr Lib.EState
open Lib.JsonDoc (Json JsonError Access)

/-- A JSON document of a service. -/
abbrev Doc := Json ℚ Bytes

/-- The library functions that the converter calls. -/
structure Library where
  -- `nlohmann::json::parse`; `none` is a parse error
  parse : Bytes → Option Doc
  -- `String::lower`
  lower : Bytes → Bytes
  -- `String::upper`
  upper : Bytes → Bytes

/-- One answer: the bytes that arrive, and whether the transfer succeeds. -/
structure Response where
  body : Bytes
  ok : Bool

/-- What the services answer during one call, by url. -/
abbrev Net := Bytes → Response

/-- The static buffer, with a record of its use: its content at the start of
each request, and for each parse the body of the request and the text that
was parsed. -/
structure Static where
  jsonString : Bytes
  starts : List Bytes
  parses : List (Bytes × Bytes)
  deriving DecidableEq

/-- Converter code: it may throw, and what it has appended stays. -/
abbrev ConverterM := EStateM JsonError Static

variable (lib : Library) (net : Net)

/-- `Converter::request`, with the appends of `write_callback`. -/
def request (url : Bytes) : ConverterM Bool := do
  modify fun s =>
    { s with
      jsonString := s.jsonString ++ (net url).body
      starts := s.starts ++ [s.jsonString] }
  pure (net url).ok

/-- `Converter::get_json` -/
def getJson : ConverterM Bytes := do pure (← get).jsonString

/-- `nlohmann::json::parse`, of the text that the request for `url` left. -/
def parseJson (url response : Bytes) : ConverterM Doc := do
  modify fun s => { s with parses := s.parses ++ [((net url).body, response)] }
  match lib.parse response with
  | none => throw .parse
  | some j => pure j

/-- `json_string.clear()` -/
def clear : ConverterM Unit := modify fun s => { s with jsonString := [] }

/-- One request block: what it reads from the answer, if there is one. -/
def fetch {α : Type} (url : Bytes) (fields : Doc → Except JsonError α) :
    ConverterM (Option α) := do
  if ← request net url then
    let response ← getJson
    let jsonResponse ← parseJson lib net url response
    match fields jsonResponse with
    | .error e => throw e
    | .ok a =>
        clear
        pure (some a)
  else
    clear
    pure none

/-! ## The sources -/

/-- A price that a source gives. -/
inductive Offer where
  | inCurrency (price : ℚ)
  | inUsd (price : ℚ)
  deriving DecidableEq

/-- The number that was read. -/
def Offer.price : Offer → ℚ
  | .inCurrency price => price
  | .inUsd price => price

/-- A request block: its url, and the prices that it reads from the answer. -/
structure Source where
  url : Bytes
  offers : Doc → Except JsonError (List Offer)

/-- `supported_currency` -/
def supportedCurrency : List Bytes :=
  ["usd", "eur", "jpy", "gbp", "cad", "btc", "eth", "chf", "aud", "cny", "sek",
    "nzd", "mxn"].map ascii

/-- `Converter::is_supported_currency`, of a code in lower case. -/
def isSupportedCurrency (currencyCode : Bytes) : Bool :=
  supportedCurrency.contains currencyCode

/-- `currency_to_id_coinmarketcap` -/
def currencyToIdCoinmarketcap : List (Bytes × Bytes) :=
  [("usd", "2781"), ("aud", "2782"), ("cad", "2784"), ("chf", "2785"),
    ("cny", "2787"), ("eur", "2790"), ("gbp", "2791"), ("jpy", "2797"),
    ("mxn", "2799"), ("nzd", "2802"), ("sek", "2807"), ("btc", "1"),
    ("eth", "1027")].map fun (name, id) => (ascii name, ascii id)

/-- The url of the rate request. -/
def ratesUrl : Bytes :=
  ascii "https://api.coinmarketcap.com/data-api/v3/cryptocurrency/quote/latest"
    ++ ascii "?id=2781,2782,2784,2785,2787,2790,2791,2797,2799,2802,2807,1,1027"
    ++ ascii "&convertId=2781"

/-- The entries of `currencies_in_usd`, in the order of their assignment. -/
def rates (j : Doc) : Except JsonError (List (Bytes × ℚ)) := do
  let currencies ← j.navigate [.key (ascii "data")]
  (List.range currencies.size).mapM fun i => do
    let name ← currencies.readStr [.item i, .key (ascii "symbol")]
    let price ← currencies.readNum
      [.item i, .key (ascii "quotes"), .item 0, .key (ascii "price")]
    pure (lib.lower name, price)

/-- The price in the currency, under `monero`. -/
def coingecko (currency : Bytes) : Source where
  url := ascii "https://api.coingecko.com/api/v3/simple/price"
    ++ ascii "?ids=monero&vs_currencies=" ++ currency
  offers j := do
    let price ← j.readNum [.key (ascii "monero"), .key currency]
    pure [.inCurrency price]

/-- The price in the currency, under the id of it; a currency without an id leaves
the url without one. -/
def coinmarketcap (currency : Bytes) : Source where
  url := ascii "https://api.coinmarketcap.com/data-api/v3/cryptocurrency/quote/latest"
    ++ ascii "?id=328&convertId=" ++ (currencyToIdCoinmarketcap.lookup currency).getD []
  offers j := do
    let price ← j.readNum
      [.key (ascii "data"), .item 0, .key (ascii "quotes"), .item 0,
        .key (ascii "price")]
    pure [.inCurrency price]

/-- One price in USD for each exchange of the answer. -/
def cryptowatch : Source where
  url := ascii "https://billboard.service.cryptowat.ch/markets"
    ++ ascii "?sort=price&onlyBaseAssets=xmr&onlyQuoteAssets=usd"
  offers j := do
    let listExchanges ← j.navigate [.key (ascii "result"), .key (ascii "rows")]
    (List.range listExchanges.size).mapM fun i => do
      let price ← listExchanges.readNum
        [.item i, .key (ascii "lastPriceByAsset"), .key (ascii "usd")]
      pure (.inUsd price)

/-- The price in the currency, or the one in USD where the currency is null. -/
def cointelegraph (currency : Bytes) : Source where
  url := ascii "https://ticker-api.cointelegraph.com/rates/?full=true"
  offers j := do
    let xmr := [.key (ascii "data"), .key (ascii "XMR")]
    if (← j.navigate (xmr ++ [.key (lib.upper currency)])).isNull then
      let price ← j.readNum (xmr ++ [.key (ascii "USD"), .key (ascii "price")])
      pure [.inUsd price]
    else
      let price ← j.readNum (xmr ++ [.key (lib.upper currency), .key (ascii "price")])
      pure [.inCurrency price]

/-- One price in USD. -/
def cryptorank : Source where
  url := ascii "https://api.cryptorank.io/v0/coins/monero?locale=en"
  offers j := do
    let priceUsd ← j.readNum
      [.key (ascii "data"), .key (ascii "price"), .key (ascii "USD")]
    pure [.inUsd priceUsd]

/-- One price in USD, at the top of the answer. -/
def coincodex : Source where
  url := ascii "https://coincodex.com/api/coincodex/get_coin/xmr"
  offers j := do
    let priceUsd ← j.readNum [.key (ascii "last_price_usd")]
    pure [.inUsd priceUsd]

/-- The six blocks, in the order of their requests. -/
def sources (currency : Bytes) : List Source :=
  [coingecko currency, coinmarketcap currency, cryptowatch,
    cointelegraph lib currency, cryptorank, coincodex]

/-! ## The conversion -/

/-- A division that is not made by zero. -/
def divide (a b : ℚ) : Option ℚ := if b = 0 then none else some (a / b)

/-- A member of `prices`: a price in the currency, or a price in USD over a
rate of the currency. -/
inductive Quote where
  | direct (price : ℚ)
  | viaUsd (price rate : ℚ)
  deriving DecidableEq

/-- The number that goes into `prices`. -/
def Quote.value : Quote → Option ℚ
  | .direct price => some price
  | .viaUsd price rate => divide price rate

/-- `currencies_in_usd[currency]`: the last value assigned, or the zero that
the map inserts. -/
def usdRate (currenciesInUsd : List (Bytes × ℚ)) (currency : Bytes) : ℚ :=
  (currenciesInUsd.reverse.lookup currency).getD 0

/-- What a price becomes in `prices`, at the rate of the currency. -/
def Offer.quote (rate : ℚ) : Offer → Quote
  | .inCurrency price => .direct price
  | .inUsd price => .viaUsd price rate

/-- The request blocks of the sources, one after the other. -/
def collect (rate : ℚ) : List Source → ConverterM (List Quote)
  | [] => pure []
  | source :: sources => do
      let offers ← fetch lib net source.url source.offers
      let prices ← collect rate sources
      pure ((offers.getD []).map (Offer.quote rate) ++ prices)

/-- What a call collects, and what it returns. -/
structure Conversion where
  prices : List Quote
  result : Option ℚ
  deriving DecidableEq

/-- The end of `convert_xmr`: the mean of the prices, and the conversion by it; `-1`
without a price. -/
def finalPrice (quantity : ℚ) (toXmr : Bool) (prices : List Quote) : Option ℚ :=
  if prices.isEmpty then some (-1)
  else do
    let values ← prices.mapM Quote.value
    let price ← divide values.sum values.length
    if toXmr then divide quantity price else pure (price * quantity)

/-- `Converter::convert_xmr`; `toXmr` is its parameter `to`. -/
def convertXmr (quantity : ℚ) (currency : Bytes) (toXmr : Bool) :
    ConverterM Conversion := do
  let currency := lib.lower currency
  let currenciesInUsd ← fetch lib net ratesUrl (rates lib)
  if isSupportedCurrency currency && 0 ≤ quantity then
    let prices ← collect lib net (usdRate (currenciesInUsd.getD []) currency)
      (sources lib currency)
    pure ⟨prices, finalPrice quantity toXmr prices⟩
  else pure ⟨[], some (-1)⟩

end Neroshop.Converter
