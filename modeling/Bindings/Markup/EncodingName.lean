import Bindings.Text.Part

/-!
# Names of encodings

An encoding has names of its own and aliases. Case does not count in them, nor which marks stand
between two words, except that a point is part of a word.
-/

namespace Bindings.Markup
open Bindings.Text

/-- The names of an encoding, each in its plain form. -/
structure EncodingNames where
  own : List String
  aliases : List String
  deriving DecidableEq, Repr, Inhabited

/-- The plain form of a name: in lower case, with one underscore between its words. -/
def plainName (name : String) : String :=
  let words := cutAll '_' (name.toLower.toList.map fun c =>
    if c.isAlphanum || c = '.' then c else '_')
  join "_" ((words.filter (!·.isEmpty)).map String.ofList)

/-- A name with underscores for its points. -/
def withoutPoints (name : String) : String := name.map fun c => if c = '.' then '_' else c

/-- Whether a name in its plain form is among the names of an encoding. In an alias points may be
    written for underscores; in a name of its own they may not. -/
def EncodingNames.has (names : EncodingNames) (name : String) : Bool :=
  names.own.contains name || names.aliases.contains name
    || names.aliases.contains (withoutPoints name)

/-- The names of encodings in which a character may have several bytes. -/
def wideNames : EncodingNames :=
  ⟨["big5", "big5hkscs", "cp932", "cp949", "cp950", "euc_jis_2004", "euc_jisx0213",
    "euc_jp", "euc_kr", "gb18030", "gb2312", "gbk", "iso2022_kr", "johab", "shift_jis",
    "shift_jis_2004", "shift_jisx0213", "utf_16", "utf_16_be", "utf_16_le", "utf_32",
    "utf_32_be", "utf_32_le", "utf_7"], ["big5_hkscs", "big5_tw", "chinese", "cp1361",
    "cp936", "csbig5", "csiso2022kr", "csiso58gb231280", "csshiftjis", "euc_cn",
    "euc_jis2004", "euccn", "eucgb2312_cn", "eucjis2004", "eucjisx0213", "eucjp",
    "euckr", "gb18030_2000", "gb2312_1980", "gb2312_80", "hkscs", "iso2022kr",
    "iso_2022_kr", "iso_ir_58", "jisx0213", "korean", "ks_c_5601", "ks_c_5601_1987",
    "ks_x_1001", "ksc5601", "ksx1001", "ms1361", "ms932", "ms936", "ms949", "ms950",
    "ms_kanji", "mskanji", "s_jis", "s_jis_2004", "s_jisx0213", "shiftjis",
    "shiftjis2004", "shiftjisx0213", "sjis", "sjis_2004", "sjisx0213", "u16", "u32",
    "u7", "u_jis", "uhc", "ujis", "unicode_1_1_utf_7", "unicodebigunmarked",
    "unicodelittleunmarked", "utf16", "utf32", "utf7", "utf_16be", "utf_16le",
    "utf_32be", "utf_32le", "x_mac_japanese", "x_mac_korean", "x_mac_simp_chinese",
    "x_mac_trad_chinese"]⟩

/-- The names of encodings with one byte for each character that do not keep those of ASCII. -/
def foreignNames : EncodingNames :=
  ⟨["cp037", "cp1026", "cp1140", "cp273", "cp424", "cp500", "cp864", "cp875",
    "mac_arabic", "mac_farsi"], ["csibm037", "csibm1026", "csibm273", "csibm424",
    "csibm500", "csibm864", "ebcdic_cp_be", "ebcdic_cp_ca", "ebcdic_cp_ch",
    "ebcdic_cp_he", "ebcdic_cp_nl", "ebcdic_cp_us", "ebcdic_cp_wt", "ibm037", "ibm039",
    "ibm1026", "ibm1140", "ibm273", "ibm424", "ibm500", "ibm864"]⟩

/-- The names of encodings that bytes have, and not characters. -/
def binaryNames : EncodingNames :=
  ⟨["base64_codec", "bz2_codec", "hex_codec", "quopri_codec", "rot_13", "uu_codec",
    "zlib_codec"], ["base64", "base_64", "bz2", "hex", "quopri", "quoted_printable",
    "quotedprintable", "rot13", "uu", "zip", "zlib"]⟩

end Bindings.Markup
