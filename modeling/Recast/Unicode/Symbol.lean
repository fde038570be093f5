import Recast.Unicode.Run

/-!
# Symbol — punctuation, symbols, separators and other characters

The general categories that hold neither letters nor marks nor numbers, as runs of code points.
All code points that no category holds are unassigned.
-/

namespace Recast
namespace Unicode

def connectors : List Run :=
  [⟨95, 95, 1⟩, ⟨8255, 8256, 1⟩, ⟨8276, 8276, 1⟩, ⟨65075, 65076, 1⟩, ⟨65101, 65103, 1⟩,
   ⟨65343, 65343, 1⟩]

def dashes : List Run :=
  [⟨45, 45, 1⟩, ⟨1418, 1418, 1⟩, ⟨1470, 1470, 1⟩, ⟨5120, 5120, 1⟩, ⟨6150, 6150, 1⟩,
   ⟨8208, 8213, 1⟩, ⟨11799, 11799, 1⟩, ⟨11802, 11802, 1⟩, ⟨11834, 11835, 1⟩, ⟨11840, 11840, 1⟩,
   ⟨11869, 11869, 1⟩, ⟨12316, 12316, 1⟩, ⟨12336, 12336, 1⟩, ⟨12448, 12448, 1⟩, ⟨65073, 65074, 1⟩,
   ⟨65112, 65112, 1⟩, ⟨65123, 65123, 1⟩, ⟨65293, 65293, 1⟩, ⟨69293, 69293, 1⟩]

def openings : List Run :=
  [⟨40, 40, 1⟩, ⟨91, 91, 1⟩, ⟨123, 123, 1⟩, ⟨3898, 3898, 1⟩, ⟨3900, 3900, 1⟩, ⟨5787, 5787, 1⟩,
   ⟨8218, 8218, 1⟩, ⟨8222, 8222, 1⟩, ⟨8261, 8261, 1⟩, ⟨8317, 8317, 1⟩, ⟨8333, 8333, 1⟩,
   ⟨8968, 8968, 1⟩, ⟨8970, 8970, 1⟩, ⟨9001, 9001, 1⟩, ⟨10088, 10100, 2⟩, ⟨10181, 10181, 1⟩,
   ⟨10214, 10222, 2⟩, ⟨10627, 10647, 2⟩, ⟨10712, 10712, 1⟩, ⟨10714, 10714, 1⟩, ⟨10748, 10748, 1⟩,
   ⟨11810, 11816, 2⟩, ⟨11842, 11842, 1⟩, ⟨11861, 11867, 2⟩, ⟨12296, 12304, 2⟩, ⟨12308, 12314, 2⟩,
   ⟨12317, 12317, 1⟩, ⟨64831, 64831, 1⟩, ⟨65047, 65047, 1⟩, ⟨65077, 65091, 2⟩, ⟨65095, 65095, 1⟩,
   ⟨65113, 65117, 2⟩, ⟨65288, 65288, 1⟩, ⟨65339, 65339, 1⟩, ⟨65371, 65371, 1⟩, ⟨65375, 65375, 1⟩,
   ⟨65378, 65378, 1⟩]

def closings : List Run :=
  [⟨41, 41, 1⟩, ⟨93, 93, 1⟩, ⟨125, 125, 1⟩, ⟨3899, 3899, 1⟩, ⟨3901, 3901, 1⟩, ⟨5788, 5788, 1⟩,
   ⟨8262, 8262, 1⟩, ⟨8318, 8318, 1⟩, ⟨8334, 8334, 1⟩, ⟨8969, 8969, 1⟩, ⟨8971, 8971, 1⟩,
   ⟨9002, 9002, 1⟩, ⟨10089, 10101, 2⟩, ⟨10182, 10182, 1⟩, ⟨10215, 10223, 2⟩, ⟨10628, 10648, 2⟩,
   ⟨10713, 10713, 1⟩, ⟨10715, 10715, 1⟩, ⟨10749, 10749, 1⟩, ⟨11811, 11817, 2⟩, ⟨11862, 11868, 2⟩,
   ⟨12297, 12305, 2⟩, ⟨12309, 12315, 2⟩, ⟨12318, 12319, 1⟩, ⟨64830, 64830, 1⟩, ⟨65048, 65048, 1⟩,
   ⟨65078, 65092, 2⟩, ⟨65096, 65096, 1⟩, ⟨65114, 65118, 2⟩, ⟨65289, 65289, 1⟩, ⟨65341, 65341, 1⟩,
   ⟨65373, 65373, 1⟩, ⟨65376, 65376, 1⟩, ⟨65379, 65379, 1⟩]

def initialQuotes : List Run :=
  [⟨171, 171, 1⟩, ⟨8216, 8216, 1⟩, ⟨8219, 8220, 1⟩, ⟨8223, 8223, 1⟩, ⟨8249, 8249, 1⟩,
   ⟨11778, 11778, 1⟩, ⟨11780, 11780, 1⟩, ⟨11785, 11785, 1⟩, ⟨11788, 11788, 1⟩, ⟨11804, 11804, 1⟩,
   ⟨11808, 11808, 1⟩]

def finalQuotes : List Run :=
  [⟨187, 187, 1⟩, ⟨8217, 8217, 1⟩, ⟨8221, 8221, 1⟩, ⟨8250, 8250, 1⟩, ⟨11779, 11779, 1⟩,
   ⟨11781, 11781, 1⟩, ⟨11786, 11786, 1⟩, ⟨11789, 11789, 1⟩, ⟨11805, 11805, 1⟩, ⟨11809, 11809, 1⟩]

def otherPunctuationFirst : List Run :=
  [⟨33, 35, 1⟩, ⟨37, 39, 1⟩, ⟨42, 42, 1⟩, ⟨44, 44, 1⟩, ⟨46, 47, 1⟩, ⟨58, 59, 1⟩, ⟨63, 64, 1⟩,
   ⟨92, 92, 1⟩, ⟨161, 161, 1⟩, ⟨167, 167, 1⟩, ⟨182, 183, 1⟩, ⟨191, 191, 1⟩, ⟨894, 894, 1⟩,
   ⟨903, 903, 1⟩, ⟨1370, 1375, 1⟩, ⟨1417, 1417, 1⟩, ⟨1472, 1472, 1⟩, ⟨1475, 1475, 1⟩,
   ⟨1478, 1478, 1⟩, ⟨1523, 1524, 1⟩, ⟨1545, 1546, 1⟩, ⟨1548, 1549, 1⟩, ⟨1563, 1563, 1⟩,
   ⟨1565, 1567, 1⟩, ⟨1642, 1645, 1⟩, ⟨1748, 1748, 1⟩, ⟨1792, 1805, 1⟩, ⟨2039, 2041, 1⟩,
   ⟨2096, 2110, 1⟩, ⟨2142, 2142, 1⟩, ⟨2404, 2405, 1⟩, ⟨2416, 2416, 1⟩, ⟨2557, 2557, 1⟩,
   ⟨2678, 2678, 1⟩, ⟨2800, 2800, 1⟩, ⟨3191, 3191, 1⟩, ⟨3204, 3204, 1⟩, ⟨3572, 3572, 1⟩,
   ⟨3663, 3663, 1⟩, ⟨3674, 3675, 1⟩, ⟨3844, 3858, 1⟩, ⟨3860, 3860, 1⟩, ⟨3973, 3973, 1⟩,
   ⟨4048, 4052, 1⟩, ⟨4057, 4058, 1⟩, ⟨4170, 4175, 1⟩, ⟨4347, 4347, 1⟩, ⟨4960, 4968, 1⟩,
   ⟨5742, 5742, 1⟩, ⟨5867, 5869, 1⟩, ⟨5941, 5942, 1⟩, ⟨6100, 6102, 1⟩, ⟨6104, 6106, 1⟩,
   ⟨6144, 6149, 1⟩, ⟨6151, 6154, 1⟩, ⟨6468, 6469, 1⟩, ⟨6686, 6687, 1⟩, ⟨6816, 6822, 1⟩,
   ⟨6824, 6829, 1⟩, ⟨7002, 7008, 1⟩, ⟨7037, 7038, 1⟩, ⟨7164, 7167, 1⟩, ⟨7227, 7231, 1⟩,
   ⟨7294, 7295, 1⟩, ⟨7360, 7367, 1⟩, ⟨7379, 7379, 1⟩, ⟨8214, 8215, 1⟩, ⟨8224, 8231, 1⟩,
   ⟨8240, 8248, 1⟩, ⟨8251, 8254, 1⟩, ⟨8257, 8259, 1⟩, ⟨8263, 8273, 1⟩, ⟨8275, 8275, 1⟩,
   ⟨8277, 8286, 1⟩, ⟨11513, 11516, 1⟩, ⟨11518, 11519, 1⟩, ⟨11632, 11632, 1⟩, ⟨11776, 11777, 1⟩,
   ⟨11782, 11784, 1⟩, ⟨11787, 11787, 1⟩, ⟨11790, 11798, 1⟩, ⟨11800, 11801, 1⟩, ⟨11803, 11803, 1⟩,
   ⟨11806, 11807, 1⟩, ⟨11818, 11822, 1⟩, ⟨11824, 11833, 1⟩, ⟨11836, 11839, 1⟩, ⟨11841, 11841, 1⟩,
   ⟨11843, 11855, 1⟩, ⟨11858, 11860, 1⟩, ⟨12289, 12291, 1⟩, ⟨12349, 12349, 1⟩, ⟨12539, 12539, 1⟩,
   ⟨42238, 42239, 1⟩, ⟨42509, 42511, 1⟩, ⟨42611, 42611, 1⟩, ⟨42622, 42622, 1⟩, ⟨42738, 42743, 1⟩,
   ⟨43124, 43127, 1⟩, ⟨43214, 43215, 1⟩, ⟨43256, 43258, 1⟩, ⟨43260, 43260, 1⟩, ⟨43310, 43311, 1⟩,
   ⟨43359, 43359, 1⟩, ⟨43457, 43469, 1⟩, ⟨43486, 43487, 1⟩, ⟨43612, 43615, 1⟩, ⟨43742, 43743, 1⟩,
   ⟨43760, 43761, 1⟩, ⟨44011, 44011, 1⟩, ⟨65040, 65046, 1⟩, ⟨65049, 65049, 1⟩, ⟨65072, 65072, 1⟩,
   ⟨65093, 65094, 1⟩, ⟨65097, 65100, 1⟩, ⟨65104, 65106, 1⟩, ⟨65108, 65111, 1⟩, ⟨65119, 65121, 1⟩,
   ⟨65128, 65128, 1⟩, ⟨65130, 65131, 1⟩]

def otherPunctuationSecond : List Run :=
  [⟨65281, 65283, 1⟩, ⟨65285, 65287, 1⟩, ⟨65290, 65290, 1⟩, ⟨65292, 65292, 1⟩, ⟨65294, 65295, 1⟩,
   ⟨65306, 65307, 1⟩, ⟨65311, 65312, 1⟩, ⟨65340, 65340, 1⟩, ⟨65377, 65377, 1⟩, ⟨65380, 65381, 1⟩,
   ⟨65792, 65794, 1⟩, ⟨66463, 66463, 1⟩, ⟨66512, 66512, 1⟩, ⟨66927, 66927, 1⟩, ⟨67671, 67671, 1⟩,
   ⟨67871, 67871, 1⟩, ⟨67903, 67903, 1⟩, ⟨68176, 68184, 1⟩, ⟨68223, 68223, 1⟩, ⟨68336, 68342, 1⟩,
   ⟨68409, 68415, 1⟩, ⟨68505, 68508, 1⟩, ⟨69461, 69465, 1⟩, ⟨69510, 69513, 1⟩, ⟨69703, 69709, 1⟩,
   ⟨69819, 69820, 1⟩, ⟨69822, 69825, 1⟩, ⟨69952, 69955, 1⟩, ⟨70004, 70005, 1⟩, ⟨70085, 70088, 1⟩,
   ⟨70093, 70093, 1⟩, ⟨70107, 70107, 1⟩, ⟨70109, 70111, 1⟩, ⟨70200, 70205, 1⟩, ⟨70313, 70313, 1⟩,
   ⟨70731, 70735, 1⟩, ⟨70746, 70747, 1⟩, ⟨70749, 70749, 1⟩, ⟨70854, 70854, 1⟩, ⟨71105, 71127, 1⟩,
   ⟨71233, 71235, 1⟩, ⟨71264, 71276, 1⟩, ⟨71353, 71353, 1⟩, ⟨71484, 71486, 1⟩, ⟨71739, 71739, 1⟩,
   ⟨72004, 72006, 1⟩, ⟨72162, 72162, 1⟩, ⟨72255, 72262, 1⟩, ⟨72346, 72348, 1⟩, ⟨72350, 72354, 1⟩,
   ⟨72448, 72457, 1⟩, ⟨72769, 72773, 1⟩, ⟨72816, 72817, 1⟩, ⟨73463, 73464, 1⟩, ⟨73539, 73551, 1⟩,
   ⟨73727, 73727, 1⟩, ⟨74864, 74868, 1⟩, ⟨77809, 77810, 1⟩, ⟨92782, 92783, 1⟩, ⟨92917, 92917, 1⟩,
   ⟨92983, 92987, 1⟩, ⟨92996, 92996, 1⟩, ⟨93847, 93850, 1⟩, ⟨94178, 94178, 1⟩,
   ⟨113823, 113823, 1⟩, ⟨121479, 121483, 1⟩, ⟨125278, 125279, 1⟩]

def otherPunctuation : List Run :=
  otherPunctuationFirst ++ otherPunctuationSecond

def mathSymbols : List Run :=
  [⟨43, 43, 1⟩, ⟨60, 62, 1⟩, ⟨124, 124, 1⟩, ⟨126, 126, 1⟩, ⟨172, 172, 1⟩, ⟨177, 177, 1⟩,
   ⟨215, 215, 1⟩, ⟨247, 247, 1⟩, ⟨1014, 1014, 1⟩, ⟨1542, 1544, 1⟩, ⟨8260, 8260, 1⟩,
   ⟨8274, 8274, 1⟩, ⟨8314, 8316, 1⟩, ⟨8330, 8332, 1⟩, ⟨8472, 8472, 1⟩, ⟨8512, 8516, 1⟩,
   ⟨8523, 8523, 1⟩, ⟨8592, 8596, 1⟩, ⟨8602, 8603, 1⟩, ⟨8608, 8608, 1⟩, ⟨8611, 8611, 1⟩,
   ⟨8614, 8614, 1⟩, ⟨8622, 8622, 1⟩, ⟨8654, 8655, 1⟩, ⟨8658, 8658, 1⟩, ⟨8660, 8660, 1⟩,
   ⟨8692, 8959, 1⟩, ⟨8992, 8993, 1⟩, ⟨9084, 9084, 1⟩, ⟨9115, 9139, 1⟩, ⟨9180, 9185, 1⟩,
   ⟨9655, 9655, 1⟩, ⟨9665, 9665, 1⟩, ⟨9720, 9727, 1⟩, ⟨9839, 9839, 1⟩, ⟨10176, 10180, 1⟩,
   ⟨10183, 10213, 1⟩, ⟨10224, 10239, 1⟩, ⟨10496, 10626, 1⟩, ⟨10649, 10711, 1⟩, ⟨10716, 10747, 1⟩,
   ⟨10750, 11007, 1⟩, ⟨11056, 11076, 1⟩, ⟨11079, 11084, 1⟩, ⟨64297, 64297, 1⟩, ⟨65122, 65122, 1⟩,
   ⟨65124, 65126, 1⟩, ⟨65291, 65291, 1⟩, ⟨65308, 65310, 1⟩, ⟨65372, 65372, 1⟩, ⟨65374, 65374, 1⟩,
   ⟨65506, 65506, 1⟩, ⟨65513, 65516, 1⟩, ⟨120513, 120513, 1⟩, ⟨120539, 120539, 1⟩,
   ⟨120571, 120571, 1⟩, ⟨120597, 120597, 1⟩, ⟨120629, 120629, 1⟩, ⟨120655, 120655, 1⟩,
   ⟨120687, 120687, 1⟩, ⟨120713, 120713, 1⟩, ⟨120745, 120745, 1⟩, ⟨120771, 120771, 1⟩,
   ⟨126704, 126705, 1⟩]

def currencySymbols : List Run :=
  [⟨36, 36, 1⟩, ⟨162, 165, 1⟩, ⟨1423, 1423, 1⟩, ⟨1547, 1547, 1⟩, ⟨2046, 2047, 1⟩,
   ⟨2546, 2547, 1⟩, ⟨2555, 2555, 1⟩, ⟨2801, 2801, 1⟩, ⟨3065, 3065, 1⟩, ⟨3647, 3647, 1⟩,
   ⟨6107, 6107, 1⟩, ⟨8352, 8384, 1⟩, ⟨43064, 43064, 1⟩, ⟨65020, 65020, 1⟩, ⟨65129, 65129, 1⟩,
   ⟨65284, 65284, 1⟩, ⟨65504, 65505, 1⟩, ⟨65509, 65510, 1⟩, ⟨73693, 73696, 1⟩,
   ⟨123647, 123647, 1⟩, ⟨126128, 126128, 1⟩]

def modifierSymbols : List Run :=
  [⟨94, 94, 1⟩, ⟨96, 96, 1⟩, ⟨168, 168, 1⟩, ⟨175, 175, 1⟩, ⟨180, 180, 1⟩, ⟨184, 184, 1⟩,
   ⟨706, 709, 1⟩, ⟨722, 735, 1⟩, ⟨741, 747, 1⟩, ⟨749, 749, 1⟩, ⟨751, 767, 1⟩, ⟨885, 885, 1⟩,
   ⟨900, 901, 1⟩, ⟨2184, 2184, 1⟩, ⟨8125, 8125, 1⟩, ⟨8127, 8129, 1⟩, ⟨8141, 8143, 1⟩,
   ⟨8157, 8159, 1⟩, ⟨8173, 8175, 1⟩, ⟨8189, 8190, 1⟩, ⟨12443, 12444, 1⟩, ⟨42752, 42774, 1⟩,
   ⟨42784, 42785, 1⟩, ⟨42889, 42890, 1⟩, ⟨43867, 43867, 1⟩, ⟨43882, 43883, 1⟩, ⟨64434, 64450, 1⟩,
   ⟨65342, 65342, 1⟩, ⟨65344, 65344, 1⟩, ⟨65507, 65507, 1⟩, ⟨127995, 127999, 1⟩]

def otherSymbolsFirst : List Run :=
  [⟨166, 166, 1⟩, ⟨169, 169, 1⟩, ⟨174, 174, 1⟩, ⟨176, 176, 1⟩, ⟨1154, 1154, 1⟩, ⟨1421, 1422, 1⟩,
   ⟨1550, 1551, 1⟩, ⟨1758, 1758, 1⟩, ⟨1769, 1769, 1⟩, ⟨1789, 1790, 1⟩, ⟨2038, 2038, 1⟩,
   ⟨2554, 2554, 1⟩, ⟨2928, 2928, 1⟩, ⟨3059, 3064, 1⟩, ⟨3066, 3066, 1⟩, ⟨3199, 3199, 1⟩,
   ⟨3407, 3407, 1⟩, ⟨3449, 3449, 1⟩, ⟨3841, 3843, 1⟩, ⟨3859, 3859, 1⟩, ⟨3861, 3863, 1⟩,
   ⟨3866, 3871, 1⟩, ⟨3892, 3896, 2⟩, ⟨4030, 4037, 1⟩, ⟨4039, 4044, 1⟩, ⟨4046, 4047, 1⟩,
   ⟨4053, 4056, 1⟩, ⟨4254, 4255, 1⟩, ⟨5008, 5017, 1⟩, ⟨5741, 5741, 1⟩, ⟨6464, 6464, 1⟩,
   ⟨6622, 6655, 1⟩, ⟨7009, 7018, 1⟩, ⟨7028, 7036, 1⟩, ⟨8448, 8449, 1⟩, ⟨8451, 8454, 1⟩,
   ⟨8456, 8457, 1⟩, ⟨8468, 8468, 1⟩, ⟨8470, 8471, 1⟩, ⟨8478, 8483, 1⟩, ⟨8485, 8489, 2⟩,
   ⟨8494, 8494, 1⟩, ⟨8506, 8507, 1⟩, ⟨8522, 8522, 1⟩, ⟨8524, 8525, 1⟩, ⟨8527, 8527, 1⟩,
   ⟨8586, 8587, 1⟩, ⟨8597, 8601, 1⟩, ⟨8604, 8607, 1⟩, ⟨8609, 8610, 1⟩, ⟨8612, 8613, 1⟩,
   ⟨8615, 8621, 1⟩, ⟨8623, 8653, 1⟩, ⟨8656, 8657, 1⟩, ⟨8659, 8659, 1⟩, ⟨8661, 8691, 1⟩,
   ⟨8960, 8967, 1⟩, ⟨8972, 8991, 1⟩, ⟨8994, 9000, 1⟩, ⟨9003, 9083, 1⟩, ⟨9085, 9114, 1⟩,
   ⟨9140, 9179, 1⟩, ⟨9186, 9254, 1⟩, ⟨9280, 9290, 1⟩, ⟨9372, 9449, 1⟩, ⟨9472, 9654, 1⟩,
   ⟨9656, 9664, 1⟩, ⟨9666, 9719, 1⟩, ⟨9728, 9838, 1⟩, ⟨9840, 10087, 1⟩, ⟨10132, 10175, 1⟩,
   ⟨10240, 10495, 1⟩, ⟨11008, 11055, 1⟩, ⟨11077, 11078, 1⟩, ⟨11085, 11123, 1⟩, ⟨11126, 11157, 1⟩,
   ⟨11159, 11263, 1⟩, ⟨11493, 11498, 1⟩, ⟨11856, 11857, 1⟩, ⟨11904, 11929, 1⟩, ⟨11931, 12019, 1⟩,
   ⟨12032, 12245, 1⟩, ⟨12272, 12283, 1⟩, ⟨12292, 12292, 1⟩, ⟨12306, 12307, 1⟩, ⟨12320, 12320, 1⟩,
   ⟨12342, 12343, 1⟩, ⟨12350, 12351, 1⟩, ⟨12688, 12689, 1⟩, ⟨12694, 12703, 1⟩, ⟨12736, 12771, 1⟩,
   ⟨12800, 12830, 1⟩, ⟨12842, 12871, 1⟩, ⟨12880, 12880, 1⟩, ⟨12896, 12927, 1⟩, ⟨12938, 12976, 1⟩,
   ⟨12992, 13311, 1⟩, ⟨19904, 19967, 1⟩, ⟨42128, 42182, 1⟩, ⟨43048, 43051, 1⟩, ⟨43062, 43063, 1⟩,
   ⟨43065, 43065, 1⟩, ⟨43639, 43641, 1⟩, ⟨64832, 64847, 1⟩, ⟨64975, 64975, 1⟩, ⟨65021, 65023, 1⟩,
   ⟨65508, 65508, 1⟩, ⟨65512, 65512, 1⟩, ⟨65517, 65518, 1⟩, ⟨65532, 65533, 1⟩, ⟨65847, 65855, 1⟩,
   ⟨65913, 65929, 1⟩, ⟨65932, 65934, 1⟩, ⟨65936, 65948, 1⟩, ⟨65952, 65952, 1⟩, ⟨66000, 66044, 1⟩,
   ⟨67703, 67704, 1⟩, ⟨68296, 68296, 1⟩, ⟨71487, 71487, 1⟩, ⟨73685, 73692, 1⟩]

def otherSymbolsSecond : List Run :=
  [⟨73697, 73713, 1⟩, ⟨92988, 92991, 1⟩, ⟨92997, 92997, 1⟩, ⟨113820, 113820, 1⟩,
   ⟨118608, 118723, 1⟩, ⟨118784, 119029, 1⟩, ⟨119040, 119078, 1⟩, ⟨119081, 119140, 1⟩,
   ⟨119146, 119148, 1⟩, ⟨119171, 119172, 1⟩, ⟨119180, 119209, 1⟩, ⟨119214, 119274, 1⟩,
   ⟨119296, 119361, 1⟩, ⟨119365, 119365, 1⟩, ⟨119552, 119638, 1⟩, ⟨120832, 121343, 1⟩,
   ⟨121399, 121402, 1⟩, ⟨121453, 121460, 1⟩, ⟨121462, 121475, 1⟩, ⟨121477, 121478, 1⟩,
   ⟨123215, 123215, 1⟩, ⟨126124, 126124, 1⟩, ⟨126254, 126254, 1⟩, ⟨126976, 127019, 1⟩,
   ⟨127024, 127123, 1⟩, ⟨127136, 127150, 1⟩, ⟨127153, 127167, 1⟩, ⟨127169, 127183, 1⟩,
   ⟨127185, 127221, 1⟩, ⟨127245, 127405, 1⟩, ⟨127462, 127490, 1⟩, ⟨127504, 127547, 1⟩,
   ⟨127552, 127560, 1⟩, ⟨127568, 127569, 1⟩, ⟨127584, 127589, 1⟩, ⟨127744, 127994, 1⟩,
   ⟨128000, 128727, 1⟩, ⟨128732, 128748, 1⟩, ⟨128752, 128764, 1⟩, ⟨128768, 128886, 1⟩,
   ⟨128891, 128985, 1⟩, ⟨128992, 129003, 1⟩, ⟨129008, 129008, 1⟩, ⟨129024, 129035, 1⟩,
   ⟨129040, 129095, 1⟩, ⟨129104, 129113, 1⟩, ⟨129120, 129159, 1⟩, ⟨129168, 129197, 1⟩,
   ⟨129200, 129201, 1⟩, ⟨129280, 129619, 1⟩, ⟨129632, 129645, 1⟩, ⟨129648, 129660, 1⟩,
   ⟨129664, 129672, 1⟩, ⟨129680, 129725, 1⟩, ⟨129727, 129733, 1⟩, ⟨129742, 129755, 1⟩,
   ⟨129760, 129768, 1⟩, ⟨129776, 129784, 1⟩, ⟨129792, 129938, 1⟩, ⟨129940, 129994, 1⟩]

def otherSymbols : List Run :=
  otherSymbolsFirst ++ otherSymbolsSecond

def spaceSeparators : List Run :=
  [⟨32, 32, 1⟩, ⟨160, 160, 1⟩, ⟨5760, 5760, 1⟩, ⟨8192, 8202, 1⟩, ⟨8239, 8239, 1⟩,
   ⟨8287, 8287, 1⟩, ⟨12288, 12288, 1⟩]

def lineSeparators : List Run :=
  [⟨8232, 8232, 1⟩]

def paragraphSeparators : List Run :=
  [⟨8233, 8233, 1⟩]

def controls : List Run :=
  [⟨0, 31, 1⟩, ⟨127, 159, 1⟩]

def formats : List Run :=
  [⟨173, 173, 1⟩, ⟨1536, 1541, 1⟩, ⟨1564, 1564, 1⟩, ⟨1757, 1757, 1⟩, ⟨1807, 1807, 1⟩,
   ⟨2192, 2193, 1⟩, ⟨2274, 2274, 1⟩, ⟨6158, 6158, 1⟩, ⟨8203, 8207, 1⟩, ⟨8234, 8238, 1⟩,
   ⟨8288, 8292, 1⟩, ⟨8294, 8303, 1⟩, ⟨65279, 65279, 1⟩, ⟨65529, 65531, 1⟩, ⟨69821, 69821, 1⟩,
   ⟨69837, 69837, 1⟩, ⟨78896, 78911, 1⟩, ⟨113824, 113827, 1⟩, ⟨119155, 119162, 1⟩,
   ⟨917505, 917505, 1⟩, ⟨917536, 917631, 1⟩]

def privateUse : List Run :=
  [⟨57344, 63743, 1⟩, ⟨983040, 1048573, 1⟩, ⟨1048576, 1114109, 1⟩]

end Unicode
end Recast
