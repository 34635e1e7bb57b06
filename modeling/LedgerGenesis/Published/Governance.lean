import LedgerGenesis.Published.Layout

/-! # Published authorities and keys of governance -/
namespace LedgerGenesis.Published

/-- A validator's label, its account and its four session keys. -/
def authority (referral account babe grandpa imOnline authorityDiscovery : String) : Layout :=
  .fields [
    ("account", account),
    ("referral", referral),
    ("babe", babe),
    ("grandpa", grandpa),
    ("im_online", imOnline),
    ("authority_discovery", authorityDiscovery)]

def mainnetAuthorities : Layout :=
  table [("authorities", .items [
    authority "Web3"
      "0x8fa51087d1a7327c90da45f8e369e31037606427f07ef77007a41036227a3a5b"
      "0xf2f2d6e98256e93ed1ce9a089364193d08bb005276be3b312648585a12413c36"
      "0x42ad0bf20a8a38084f62a8bc720cdf948994aa97c0afcc04f070ee85f7c3f4bf"
      "0x9e6afcacebf456bfc909d81d0bbdd0a337f1abca3677150bc83d388956cc1701"
      "0x6047ffbc896c22352433c0b3cf81b2e3264a3a0ab792709ef103b046bce86553",
    authority "XPool"
      "0x4386e83d66fbdf9ebe72af81d453f41fb8f877287f04823665fc81b58cab6e6b"
      "0x64280c07db03b85ac6206e6558df9fd4abc8778ff9afe094e53aa7767ed05313"
      "0x470a27b38990f1a0101cb5f149c514bd0f5bc1ec24d24b3aa72ca4e92482ebff"
      "0x2ade0d1735328c5753af812ce54df9db24d3979204d331cb1c08cc455dbb6f16"
      "0xe87062ff7a629b90d2af59b1982442b2aa88fd470c961ab3f86de2f340e0fe55",
    authority "ChainY"
      "0x5620d851190bda61acb08f1a06defcdd5a3c7da3c33819643e7d6ee232ee78bf"
      "0xc2c3852ff9feec91412b271a8a49eb41ca83b9d9fecf9906240e19d73eceed0d"
      "0x7e29e36d138c6f789c0b6b4c98ca1162ee78a1828e4b1682f5e06756b6b1994f"
      "0xe03adc1ac1b442a5e0e2c6ef1b806a9874e478a7cfc8a3d4fce5731716fd951e"
      "0xd47da74631ce8f5e0f29971538c4bae9834bbc28e82f250bbff060ba203ac035",
    authority "PolkaWorld"
      "0x3448be503acf3f8c8831af55a4816e5382284dab213e1022edf368fb07aaeb25"
      "0xa8d9f57c79d86a056b53b0a496359f0dc8099fb1f5a5ee46647b9e319a953a51"
      "0x7c60176664c7ba4c273771955509ed0a54ba45467356595b8961a3ec0ae71d55"
      "0xd0d33b1fead76b802c1aeebaeb86a25e133925b0cca6264da6feba6015b5bf4e"
      "0x1cabfdd4b314033594b899a08fc285181fc928be962edef2e3323802df86283a",
    authority "Polkadog"
      "0x8ab72fa19af7cce7983af666d2945c238c10812d760b6b0181753cb9cbba127f"
      "0xd88a8c4f49af34e68de2d71cb2ac390ad10c06f5bb7ddfa2df34098ec3ef3a10"
      "0xc24c5605efdc47faedbb3c5fe6b7b47d73940597d1e3d898da53f8766c9678b4"
      "0x06a09ea25228d2f53f0589a37b614282dcd94b118d2a029cb07b3cf568e90541"
      "0xb6f037faa989b654b6869bbd931797078eb025dcb0cbd8ab17192461af634d32"])]

def testnetAuthorities : Layout :=
  table [("authorities", .items [
    authority "Hotbit"
      "0x31000d19a3e9607d92b3697a661a6e7e9fbb65361846680d968cfc86c9561103"
      "0x52c4cb6299ef78711dd1025b7bfc91655abed0f028bbf04145c2e249b1454909"
      "0x75e1249435a447adc812cc418c01fb5719488025add677bcc931d36a2338848a"
      "0xbe533292b9da99f2d03eb1ef7c4c9dfe3dbe26bf2fca75562d2618fbc7870b24"
      "0x3ca7705b612b2bd56a50a6284b8095bb23c71805e9ca047256f630589944f815",
    authority "Web3"
      "0x8fa51087d1a7327c90da45f8e369e31037606427f07ef77007a41036227a3a5b"
      "0xcebaa8ae0af251cbf2aa5e397a6186d440b1c9e4f930388b209d0b5f93dbbf70"
      "0xf5ad8c0b2806effb7a77234b2955860c95fad100ea706fa60ceb7274fd399e63"
      "0x001c7bf4abd047bc97a1fb3c201d6a785e1eb3c818c838b5f2f0be98121f586c"
      "0x42941089ea8a4353e2dab6905d27260735526a1a408274fc6c0d233b1a9e311e",
    authority "ChainY"
      "0x5620d851190bda61acb08f1a06defcdd5a3c7da3c33819643e7d6ee232ee78bf"
      "0xaa41c49785e1f4bc9079f3c2af7b9f43ff88545e9777b6bb291574982a5a9169"
      "0x21dc525f93a2afcb7abf0cb094c26ab807af5f89590269f0dd5fbaa2b91eb754"
      "0x42ed13bde38b21f479448b8ed9d155a9e7318acfafcb06f4e50d3098c1304c11"
      "0xdc097bedcd2c06e87054f644a4cbe7f78470687a03fe019af6fffe775390d641"])]

/-- The members of the technical committee of each network. -/
def technicalCommittee : Layout :=
  table [
    ("testnet", texts [
      "0x2a077c909d0c5dcb3748cc11df2fb406ab8f35901b1a93010b78353e4a2bde0d",
      "0xd86477344ad5c27a45c4c178c7cca1b7b111380a4fbe7e23b3488a42ce56ca30",
      "0x485bf22c979d4a61643f57a2006ff4fb7447a2a8ed905997c5f6b0230f39b860"]),
    ("mainnet", texts [
      "0xa62add1af3bcf9256aa2def0fea1b9648cb72517ccee92a891dc2903a9093e52",
      "0x0221ce7c4a0b771faaf0bbae23c3a1965348cb5257611313a73c3d4a53599509",
      "0x9542907d40eaab54d3a35a08be01ff82abe298ce210a7a3de3dd2cd0d6b0e9d3"])]

/-- The administrators of the networks that have one. -/
def adminKeys : Layout :=
  table [("admin_keys", .fields [
    ("testnet", "0xb0ca18cce5c51f51655acf683453aa1ff319e3c3edd00b43b36a686a3ae34341")])]

end LedgerGenesis.Published
