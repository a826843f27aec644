import HumbleNet.Hmac
import HumbleNet.Message
import Mathlib.Data.List.Sort

/-! The hello a client signs (`sendHelloServer`). -/
namespace HumbleNet

def ascii (cs : List Char) : Bytes := cs.map fun c => UInt8.ofNat c.toNat

def decimal : Int → Bytes
  | .ofNat n => ascii (Nat.toDigits 10 n)
  | .negSucc n => ascii ('-' :: Nat.toDigits 10 (n + 1))

def timestampKey : Bytes := ascii ['t', 'i', 'm', 'e', 's', 't', 'a', 'm', 'p']

/-- `CreateVectorOfSortedTables`: `Attribute` is compared by `strcmp` on its key. -/
def sortAttributes (attributes : List Attribute) : List Attribute :=
  attributes.insertionSort fun x y => cStr x.key ≤ cStr y.key

/-- The vector of the message: the caller's attributes but for `timestamp`, which is set
to the current time. -/
def helloAttributes (now : Int) (attributes : List (Bytes × Bytes)) : List Attribute :=
  sortAttributes
    (((attributes.filter fun it => it.1 ≠ timestampKey).map fun it => ⟨it.1, it.2⟩) ++
      [⟨timestampKey, decimal now⟩])

def hmacAttributes (ctx : HMACContext) (attributes : List Attribute) : HMACContext :=
  attributes.foldl (fun ctx it => hmacInput (hmacInput ctx it.key) it.value) ctx

def helloSignature (sha1 : Bytes → Digest) (gamesecret authToken reconnectToken : Bytes)
    (attribs : List Attribute) : Bytes :=
  let hmac := hmacInput (hmacInput (hmacInit sha1 gamesecret) authToken) reconnectToken
  hmacResultToHex (hmacResult sha1 (hmacAttributes hmac attribs))

def sendHelloServer {γ : Type} (sha1 : Bytes → Digest) (now : Int) (assertion : γ)
    (sendP2PMessage : Message → γ) (flags : UInt8) (gametoken gamesecret : Bytes)
    (authToken reconnectToken : Bytes) (attributes : List (Bytes × Bytes)) : γ :=
  if gametoken.isEmpty || gamesecret.isEmpty then assertion
  else
    let attribs := helloAttributes now attributes
    sendP2PMessage (.helloServer (some
      { version := 0
        flags := flags
        gameToken := gametoken
        gameSignature := helloSignature sha1 gamesecret authToken reconnectToken attribs
        authToken := stringIfNotEmpty authToken
        reconnectToken := stringIfNotEmpty reconnectToken
        attributes := some attribs }))

def attributeBytes (attributes : List Attribute) : Bytes :=
  attributes.flatMap fun it => it.key ++ it.value

theorem hmacAttributes_eq (ctx : HMACContext) (attributes : List Attribute) :
    hmacAttributes ctx attributes = hmacInput ctx (attributeBytes attributes) := by
  induction attributes generalizing ctx with
  | nil => simp [hmacAttributes, attributeBytes, hmacInput]
  | cons it rest ih =>
    have step : hmacAttributes ctx (it :: rest) =
        hmacAttributes (hmacInput (hmacInput ctx it.key) it.value) rest := rfl
    rw [step, ih, hmacInput_append, hmacInput_append]
    simp only [attributeBytes, List.flatMap_cons, List.append_assoc]

end HumbleNet
