import HumbleNet.Bytes

/-! The checksum in front of every signaling message (`crc.c`): width 32, polynomial
0x04c11db7, nothing reflected, table driven. -/
namespace HumbleNet

def crcShift (c : UInt32) : UInt32 :=
  if c &&& 0x80000000 = 0 then c <<< 1 else (c <<< 1) ^^^ 0x04c11db7

/-- `crc_table[i]`, from the polynomial the table was generated with. -/
def crcTable (i : UInt32) : UInt32 :=
  crcShift (crcShift (crcShift (crcShift (crcShift (crcShift (crcShift (crcShift (i <<< 24))))))))

def crcInit : UInt32 := 0xffffffff

def crcUpdate (crc : UInt32) (data : Bytes) : UInt32 :=
  data.foldl (fun c d => crcTable (((c >>> 24) ^^^ d.toUInt32) &&& 0xff) ^^^ (c <<< 8)) crc

def crcFinalize (crc : UInt32) : UInt32 := crc ^^^ 0xffffffff

def crcOf (data : Bytes) : UInt32 := crcFinalize (crcUpdate crcInit data)

example : [crcTable 1, crcTable 2, crcTable 128, crcTable 255] =
    [0x04c11db7, 0x09823b6e, 0x690ce0ee, 0xb1f740b4] := by decide

end HumbleNet
