import LedgerGenesis.Proofs.Bitcoin.Retarget
import LedgerGenesis.Proofs.Bitcoin.Verification
import LedgerGenesis.Proofs.CommandLine.WrittenFiles

/-! # The anchor in a specification that was built

An assembly trusts its anchor, so what a document says of it holds because each way to build a specification
takes the anchor through the verifier. The network of the bridge is that of the profile by a check of the
assembly; the metadata name it because they are made from the same profile.
-/
namespace LedgerGenesis.Spec

variable {state : State} {m : Metadata} {profile : Profile} {doc v : Json}

/-- The bridge, the runtime and the display properties name their network. -/
structure NamesNetwork (doc : Json) (bitcoin family : Text) (format : Int) : Prop where
  bridge : doc.at? ["genesis", "runtime", "xGatewayBitcoin", "networkId"] = some (.text bitcoin)
  runtime : doc.at? ["genesis", "runtime", "xSystem", "networkProps"] = some (.text family)
  properties : doc.at? ["properties", "network"] = some (.text family)
  format : doc.at? ["properties", "ss58Format"] = some (.int format)

/-- The document shows the header of the anchor, its hash and the parameters of retargeting, with as much
work as these demand, and names the network of these parameters throughout. -/
structure CarriesAnchor (p : Parameters) (doc : Json) (header : Header) : Prop where
  info : ∃ height : Int, doc.at? ["genesis", "runtime", "xGatewayBitcoin", "genesisInfo"] =
    some (.list [header.toJson, .int height])
  size : header.serialize.length = 80
  hash : doc.at? ["genesis", "runtime", "xGatewayBitcoin", "genesisHash"] =
    some (.text (Hex.encode (doubleSha256 header.serialize)))
  params : doc.at? ["genesis", "runtime", "xGatewayBitcoin", "paramsInfo"] = some p.retarget.toJson
  work : ∃ maxBits : Int,
    doc.at? ["genesis", "runtime", "xGatewayBitcoin", "paramsInfo", "maxBits"] = some (.int maxBits) ∧
      Anchor.HasWork header maxBits
  window : ∃ interval spacing timespan : Int,
    doc.at? ["genesis", "runtime", "xGatewayBitcoin", "paramsInfo", "retargetingInterval"] =
      some (.int interval) ∧
    doc.at? ["genesis", "runtime", "xGatewayBitcoin", "paramsInfo", "targetSpacingSeconds"] =
      some (.int spacing) ∧
    doc.at? ["genesis", "runtime", "xGatewayBitcoin", "paramsInfo", "targetTimespanSeconds"] =
      some (.int timespan) ∧
    interval * spacing = timespan
  network : p.network = .mainnet ∧ NamesNetwork doc "Mainnet" "mainnet" 44 ∨
    p.network = .testnet ∧ NamesNetwork doc "Testnet" "testnet" 42

theorem at?_runtime {path : List Text} {subs : Json} :
    (Json.object (documentOf m subs (.object [("runtime", v)]))).at? ("genesis" :: "runtime" :: path) =
      v.at? path := rfl

theorem at?_properties {path : List Text} {subs data : Json} :
    (Json.object (documentOf m subs data)).at? ("properties" :: path) = m.properties.at? path := rfl

/-- What the runtime's configuration says stands in the document of the specification. -/
theorem at?_of_ofState (h : state.toJson = .ok v) {k : Text} {path : List Text} {w : Json}
    (hk : k ≠ "sudo")
    (hw : ∀ trustees labels, (Json.object (state.commonSections
      (Endowment.numberedJson state.assetsEndowed) trustees labels)).at? (k :: path) = some w) :
    (Json.object (documentOf m (.object []) (.object [("runtime", v)]))).at?
      ("genesis" :: "runtime" :: k :: path) = some w := by
  rw [at?_runtime]
  exact State.at?_of_toJson h hk hw

/-- The network of a profile is named by the document of a state with an anchor of that network. -/
theorem namesNetwork_of_ofState (h : state.toJson = .ok v)
    (hanchor : state.bridge.anchor.network = Inputs.bridgedNetwork state.parameters.network)
    (hm : m.properties = networkProperties state.parameters.network) :
    NamesNetwork (.object (documentOf m (.object []) (.object [("runtime", v)])))
      (Inputs.bridgedNetwork state.parameters.network).name state.parameters.network.name
      state.parameters.network.addressFormat where
  bridge := by
    rw [← hanchor]
    exact at?_of_ofState h (by decide) fun _ _ => rfl
  runtime := at?_of_ofState h (by decide) fun _ _ => rfl
  properties := by
    rw [at?_properties, hm]
    rfl
  format := by
    rw [at?_properties, hm]
    rfl

/-- An anchor that was verified and passed the check of the assembly is carried by the document. -/
theorem carriesAnchor_of_verified (h : state.toJson = .ok v)
    (hcheck : Inputs.checkAnchor state.parameters state.bridge.anchor = .ok ())
    (hverified : Anchor.Verifier.headerHash state.bridge.anchor = .ok ())
    (hm : m.properties = networkProperties state.parameters.network) :
    CarriesAnchor state.parameters (.object (documentOf m (.object []) (.object [("runtime", v)])))
      state.bridge.anchor.header := by
  obtain ⟨hnetwork, hretarget⟩ := Inputs.checkAnchor_eq_ok_iff.mp hcheck
  obtain ⟨⟨-, hwork⟩, -⟩ := Anchor.headerHash_eq_ok_iff.mp hverified
  exact {
    info := ⟨_, at?_of_ofState h (by decide) fun _ _ => rfl⟩
    size := Header.length_serialize _
    hash := by
      rw [Anchor.hash_of_headerHash hverified]
      exact at?_of_ofState h (by decide) fun _ _ => rfl
    params := by
      rw [← hretarget]
      exact at?_of_ofState h (by decide) fun _ _ => rfl
    work := ⟨_, at?_of_ofState h (by decide) fun _ _ => rfl, hwork⟩
    window := ⟨_, _, _, at?_of_ofState h (by decide) fun _ _ => rfl,
      at?_of_ofState h (by decide) fun _ _ => rfl, at?_of_ofState h (by decide) fun _ _ => rfl,
      Retarget.interval_mul_spacing _⟩
    network := by
      have hnames := namesNetwork_of_ofState h hnetwork hm
      cases hfamily : state.parameters.network with
      | mainnet =>
        rw [hfamily] at hnames
        exact Or.inl ⟨rfl, hnames⟩
      | testnet =>
        rw [hfamily] at hnames
        exact Or.inr ⟨rfl, hnames⟩ }

/-- Whatever the files and the settings, and whichever images are accepted, a specification that is built for a
profile has a document, and this carries an anchor that was verified for the network of the profile. -/
theorem build_carries_anchor {files : Files} {settings : Settings} {accepts : Image.Validator}
    {preset : Preset} {s : Spec} (hp : Preset.ofProfile profile false = .ok preset)
    (h : preset.build { files, settings, accepts } = .ok s) :
    ∃ doc header, s.toJson = .ok doc ∧ CarriesAnchor profile.parameters doc header := by
  obtain ⟨hfeeds, hassemble, hproperties, -, rfl⟩ := Sources.makes_of_build profile hp h
  obtain ⟨v, hv⟩ := hfeeds.exists_toJson hassemble
  have hyields := Inputs.assemble_eq_ok_iff.mp hassemble
  have hprofile := Profile.ofJson_eq_ok_iff.mpr hfeeds.profile
  obtain rfl := Except.ok.inj (hprofile.symm.trans hyields.profile)
  have hcheck := hyields.anchor_checked
  have hverified := hfeeds.verified
  rw [← hyields.anchor] at hcheck hverified
  exact ⟨_, _, toJson_ofState_eq_ok_iff.mpr ⟨v, hv, rfl⟩,
    carriesAnchor_of_verified hv hcheck hverified hproperties⟩

open CommandLine.Outcome (halfRateSources halfRate_load)

/-- The main network that is built from small tables. -/
theorem main_carries_anchor : ∃ s doc header,
    Preset.ofProfile .main false = .ok .newMainnet ∧
    Preset.newMainnet.build halfRateSources = .ok s ∧
    s.toJson = .ok doc ∧ CarriesAnchor Profile.main.parameters doc header := by
  obtain ⟨s, hs, -⟩ := halfRate_load
  have hbuild : Preset.newMainnet.build halfRateSources = .ok s := hs
  obtain ⟨doc, header, hdoc, hcarries⟩ := build_carries_anchor
    (rfl : Preset.ofProfile .main false = .ok .newMainnet) hbuild
  exact ⟨s, doc, header, rfl, hbuild, hdoc, hcarries⟩

end LedgerGenesis.Spec
